/-
# The lineage of processes

A process that was spawned names the one whose step spawned it. Following these names upwards ends,
as identifiers are given out one after the other and a process is younger than the one that spawned
it. So as many links as there are processes suffice to find all that one of them has spawned.

* `Descends` : one process was spawned by another, directly or through others;
* `Server.Numbered`, `Server.IdsDistinct` : how identifiers are given out;
* `isWithin_iff` : bounded search for an ancestor finds every ancestor;
* `mem_remove`, `mem_keep` : who is left on a server, and who is added.
-/
import Mathlib.Data.List.Nodup
import Mathlib.Data.List.Perm.Subperm
import Stepwise.Server.Basic

namespace Stepwise

/-- The process with an identifier is the first one, or was spawned by it, directly or through
others that run. -/
inductive Descends (instances : List Instance) (id : Uuid) : Uuid → Prop where
  | self : Descends instances id id
  | link {p : Instance} {parent : Uuid} (running : p ∈ instances) (hparent : p.parent = some parent)
      (above : Descends instances id parent) : Descends instances id p.id

/-- The process has the n-th identifier, and its parent has an earlier one. -/
def Instance.HasNumber (p : Instance) (n : Nat) : Prop :=
  p.id = .issued n ∧ ∀ x, p.parent = some x → ∃ k < n, x = .issued k

namespace Server

/-- No identifier was given out twice so far. That is what a source of identifiers promises; the local
series keeps it for a long time. -/
def IdsDistinct (server : Server) : Prop :=
  ∀ m < server.issued, ∀ n < server.issued, Uuid.issued m = Uuid.issued n → m = n

/-- The processes have identifiers that were given out, later ones than their parents. -/
def Numbered (server : Server) : Prop :=
  ∀ p ∈ server.instances, ∃ n < server.issued, p.HasNumber n

theorem IdsDistinct.of_le {server later : Server} (distinct : later.IdsDistinct)
    (hle : server.issued ≤ later.issued) : server.IdsDistinct :=
  fun m hm n hn heq => distinct m (by omega) n (by omega) heq

/-- What was given out before is not given out anew. -/
theorem IdsDistinct.not_new {later : Server} {first : Nat} {x : Uuid} (distinct : later.IdsDistinct)
    (old : ∃ m < first, x = .issued m) :
    ¬ ∃ n, first ≤ n ∧ n < later.issued ∧ x = .issued n := by
  rintro ⟨n, hn, hlt, new⟩
  obtain ⟨m, hm, old⟩ := old
  have same : m = n := distinct m (by omega) n hlt (old.symm.trans new)
  omega

/-- The local series gives nothing out twice for as many identifiers as fit into 127 bits. -/
theorem idsDistinct_of_le {server : Server}
    (h : server.issued ≤ 0x80000000000000000000000000000000) : server.IdsDistinct :=
  fun _ hm _ hn heq =>
    Uuid.issued_injective (Nat.lt_of_lt_of_le hm h) (Nat.lt_of_lt_of_le hn h) heq

/-- A process is known by its identifier. -/
theorem eq_of_id (server : Server) {p q : Instance} (hp : p ∈ server.instances)
    (hq : q ∈ server.instances) (hid : p.id = q.id) : p = q :=
  List.inj_on_of_nodup_map server.distinct hp hq hid

theorem find?_of_mem (server : Server) {p : Instance} (hp : p ∈ server.instances) :
    server.instances.find? (·.id = p.id) = some p := by
  cases h : server.instances.find? (·.id = p.id) with
  | none =>
    have := List.find?_eq_none.1 h p hp
    simp at this
  | some q =>
    have hid : q.id = p.id := by simpa using List.find?_some h
    rw [server.eq_of_id (List.mem_of_find?_eq_some h) hp hid]

/-- A process is found by its identifier. -/
theorem instance?_eq_some {server : Server} {p : Instance} {id : Uuid} :
    server.instance? id = some p ↔ p ∈ server.instances ∧ p.id = id := by
  constructor
  · exact fun found => ⟨List.mem_of_find?_eq_some found, by simpa using List.find?_some found⟩
  · rintro ⟨hp, rfl⟩
    exact server.find?_of_mem hp

end Server

/-! ## Descent -/

namespace Descends

variable {instances others : List Instance} {a b c : Uuid}

/-- Descent is a matter of identifiers and parents only. -/
theorem mono (h : Descends instances a b)
    (sub : ∀ p ∈ instances, ∃ q ∈ others, q.id = p.id ∧ q.parent = p.parent) :
    Descends others a b := by
  induction h with
  | self => exact .self
  | link running hparent _ ih =>
    obtain ⟨q, hq, hid, hpar⟩ := sub _ running
    rw [← hid]
    exact .link hq (hpar.trans hparent) ih

theorem trans (hab : Descends instances a b) (hbc : Descends instances b c) :
    Descends instances a c := by
  induction hbc with
  | self => exact hab
  | link running hparent _ ih => exact .link running hparent ih

/-- What descends from a running process runs. -/
theorem running (h : Descends instances a b) (ha : a ∈ instances.map (·.id)) :
    b ∈ instances.map (·.id) := by
  cases h with
  | self => exact ha
  | link running => exact List.mem_map_of_mem running

/-- A process that descends from another one is that one, or its parent descends from it. -/
theorem cases_of_mem {server : Server} {p : Instance} (hp : p ∈ server.instances)
    (h : Descends server.instances a p.id) :
    a = p.id ∨ ∃ x, p.parent = some x ∧ Descends server.instances a x := by
  generalize hid : p.id = b at h
  cases h with
  | self => exact .inl rfl
  | link running hparent above =>
    obtain rfl := server.eq_of_id hp running hid
    exact .inr ⟨_, hparent, above⟩

/-- What does not descend from a process descends from others as before once that process and all its
descendants are gone. -/
theorem survives (h : Descends instances b c)
    (left : ∀ p ∈ instances, ¬ Descends instances a p.id → p ∈ others)
    (apart : ¬ Descends instances a c) : Descends others b c := by
  induction h with
  | self => exact .self
  | @link p parent running hparent _ ih =>
    exact .link (left p running apart) hparent (ih fun h => apart (.link running hparent h))

end Descends

/-! ## The bounded search -/

section Search

variable {instances : List Instance} {id : Uuid}

/-- Who is found was spawned as said. -/
theorem descends_of_isWithin {links : Nat} {p : Instance} (hp : p ∈ instances)
    (h : Server.isWithin instances id links p = true) : Descends instances id p.id := by
  induction links generalizing p with
  | zero =>
    rw [Server.isWithin, decide_eq_true_eq] at h
    rw [h]
    exact .self
  | succ links ih =>
    rw [Server.isWithin, Bool.or_eq_true, decide_eq_true_eq, Option.any_eq_true] at h
    rcases h with h | ⟨q, hfind, hq⟩
    · rw [h]
      exact .self
    · obtain ⟨x, hparent, hfind⟩ := Option.bind_eq_some_iff.1 hfind
      have hid : q.id = x := by simpa using List.find?_some hfind
      refine .link hp hparent ?_
      rw [← hid]
      exact ih (List.mem_of_find?_eq_some hfind) hq

/-- A longer search finds no less. -/
theorem isWithin_succ {links : Nat} {p : Instance}
    (h : Server.isWithin instances id links p = true) :
    Server.isWithin instances id (links + 1) p = true := by
  induction links generalizing p with
  | zero =>
    rw [Server.isWithin] at h
    rw [Server.isWithin, h, Bool.true_or]
  | succ links ih =>
    rw [Server.isWithin, Bool.or_eq_true, Option.any_eq_true] at h
    rw [Server.isWithin, Bool.or_eq_true, Option.any_eq_true]
    rcases h with h | ⟨q, hfind, hq⟩
    · exact .inl h
    · exact .inr ⟨q, hfind, ih hq⟩

theorem isWithin_of_le {m n : Nat} {p : Instance} (hle : m ≤ n)
    (h : Server.isWithin instances id m p = true) : Server.isWithin instances id n p = true := by
  induction hle with
  | refl => exact h
  | step _ ih => exact isWithin_succ ih

end Search

namespace Server

variable {server : Server} {id x : Uuid}

/-- The way up from a process to one from which it descends passes processes of smaller and smaller
numbers, so that none is passed twice. -/
theorem exists_line (numbered : server.Numbered) (distinct : server.IdsDistinct)
    (hid : id ∈ server.instances.map (·.id)) (h : Descends server.instances id x) :
    ∀ {p : Instance} {n : Nat}, p ∈ server.instances → p.id = x → n < server.issued → x = .issued n →
      ∃ line : List Uuid, ∃ links, line.Nodup ∧ line ⊆ server.instances.map (·.id) ∧
        (∀ y ∈ line, ∃ k ≤ n, y = .issued k) ∧ line.length = links + 1 ∧
        isWithin server.instances id links p = true := by
  induction h with
  | self =>
    intro p n hp hpid hn hx
    refine ⟨[id], 0, List.nodup_singleton _, by simpa using hid, ?_, rfl, ?_⟩
    · intro y hy
      exact ⟨n, Nat.le_refl n, (List.mem_singleton.1 hy).trans hx⟩
    · rw [isWithin, decide_eq_true_eq]
      exact hpid
  | @link q parent running hparent above ih =>
    intro p n hp hpid hn hx
    obtain rfl := server.eq_of_id hp running hpid
    obtain ⟨m, hm, hpm, hearlier⟩ := numbered p hp
    obtain rfl : m = n := distinct m hm n hn (hpm.symm.trans hx)
    obtain ⟨k, hk, rfl⟩ := hearlier parent hparent
    obtain ⟨r, hr, hrid⟩ := List.mem_map.1 (above.running hid)
    obtain ⟨line, links, hnodup, hsub, hnumbers, hlength, hwithin⟩ := ih hr hrid (by omega) rfl
    refine ⟨p.id :: line, links + 1, List.nodup_cons.2 ⟨fun hmem => ?_, hnodup⟩, ?_, ?_, ?_, ?_⟩
    · obtain ⟨j, hj, heq⟩ := hnumbers p.id hmem
      have := distinct j (by omega) m hn (heq.symm.trans hx)
      omega
    · exact List.cons_subset.2 ⟨List.mem_map_of_mem hp, hsub⟩
    · intro y hy
      rcases List.mem_cons.1 hy with rfl | hy
      · exact ⟨m, Nat.le_refl m, hx⟩
      · obtain ⟨j, hj, heq⟩ := hnumbers y hy
        exact ⟨j, by omega, heq⟩
    · rw [List.length_cons, hlength]
    · have hfind := server.find?_of_mem hr
      rw [hrid] at hfind
      rw [isWithin, hparent, Option.bind_some, hfind, Option.any_some, hwithin, Bool.or_true]

/-- The search through as many links as there are processes finds exactly what descends from a running
process. -/
theorem isWithin_iff (numbered : server.Numbered) (distinct : server.IdsDistinct)
    (hid : id ∈ server.instances.map (·.id)) {p : Instance} (hp : p ∈ server.instances) :
    isWithin server.instances id server.instances.length p = true ↔
      Descends server.instances id p.id := by
  constructor
  · exact descends_of_isWithin hp
  · intro h
    obtain ⟨n, hn, hpn, -⟩ := numbered p hp
    obtain ⟨line, links, hnodup, hsub, -, hlength, hwithin⟩ :=
      exists_line numbered distinct hid h hp rfl hn hpn
    have hle : line.length ≤ (server.instances.map (·.id)).length :=
      (hnodup.subperm hsub).length_le
    rw [List.length_map, hlength] at hle
    exact isWithin_of_le (by omega) hwithin

/-! ## Who is left and who is added -/

/-- Removing a process removes exactly what descends from it. -/
theorem mem_remove (numbered : server.Numbered) (distinct : server.IdsDistinct)
    (hid : id ∈ server.instances.map (·.id)) {p : Instance} :
    p ∈ (server.remove id).instances ↔
      p ∈ server.instances ∧ ¬ Descends server.instances id p.id := by
  rw [remove, List.mem_filter, Bool.not_eq_true', Bool.eq_false_iff]
  constructor
  · rintro ⟨hp, h⟩
    exact ⟨hp, fun hdesc => h ((isWithin_iff numbered distinct hid hp).2 hdesc)⟩
  · rintro ⟨hp, h⟩
    exact ⟨hp, fun hwithin => h ((isWithin_iff numbered distinct hid hp).1 hwithin)⟩

/-- Keeping a process puts it in the place of the one with its identifier. -/
theorem mem_keep {p q : Instance} :
    q ∈ (server.keep p).instances ↔ q = p ∨ (q ∈ server.instances ∧ q.id ≠ p.id) := by
  rw [keep, List.mem_cons, List.mem_filter, decide_eq_true_eq]

/-- Keeping a new process adds it. -/
theorem instances_keep_new {p : Instance} (new : p.id ∉ server.instances.map (·.id)) :
    (server.keep p).instances = p :: server.instances := by
  have hall : server.instances.filter (·.id ≠ p.id) = server.instances :=
    List.filter_eq_self.2 fun q hq => decide_eq_true fun heq => new (heq ▸ List.mem_map_of_mem hq)
  show p :: server.instances.filter (·.id ≠ p.id) = _
  rw [hall]

/-- Keeping a new process adds its identifier. -/
theorem ids_keep_new {p : Instance} (new : p.id ∉ server.instances.map (·.id)) :
    (server.keep p).instances.map (·.id) = p.id :: server.instances.map (·.id) := by
  rw [instances_keep_new new, List.map_cons]

/-- Keeping a process that runs already leaves the identifiers as they are. -/
theorem ids_keep_old {p : Instance} (old : p.id ∈ server.instances.map (·.id)) :
    ((server.keep p).instances.map (·.id)).Perm (server.instances.map (·.id)) := by
  apply (List.perm_ext_iff_of_nodup (server.keep p).distinct server.distinct).2
  intro x
  constructor
  · intro hx
    obtain ⟨q, hq, rfl⟩ := List.mem_map.1 hx
    rcases mem_keep.1 hq with rfl | ⟨hq, -⟩
    · exact old
    · exact List.mem_map_of_mem hq
  · intro hx
    obtain ⟨q, hq, rfl⟩ := List.mem_map.1 hx
    by_cases heq : q.id = p.id
    · rw [heq]
      exact List.mem_map_of_mem (mem_keep.2 (.inl rfl))
    · exact List.mem_map_of_mem (f := (·.id)) (mem_keep.2 (.inr ⟨hq, heq⟩))

end Server

end Stepwise

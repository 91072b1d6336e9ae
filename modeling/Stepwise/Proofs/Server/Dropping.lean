/-
# What a request leaves alone

A process that is over is dropped with all that it has spawned. The processes of a server are kept in
no order, so those that a process has spawned are dropped in any order, each with what it has spawned
itself. This drops the same processes in whatever order it is done, and they are all that a request
ever drops.

* `Drops` : dropping processes one after the other, each with all that it has spawned;
* `Drops.mem_iff`, `exists_drops` : who is left after it, and that it comes to an end;
* `Server.frame_execute` : what a request leaves as it is.
-/
import Stepwise.Proofs.Server.Outcome

namespace Stepwise

/-! ## Dropping in any order -/

/-- The processes but the one with an identifier. -/
def apartFrom (instances : List Instance) (id : Uuid) : List Instance :=
  instances.filter (·.id ≠ id)

/-- Of some processes others are left once those with certain identifiers are dropped, one after the
other. Dropping a process takes it out first, then looks for those that it has spawned, and drops
these, in any order. -/
inductive Drops : List Instance → List Uuid → List Instance → Prop where
  | done {instances : List Instance} : Drops instances [] instances
  /-- The process is gone already. -/
  | skip {instances rest : List Instance} {id : Uuid} {ids : List Uuid}
      (gone : id ∉ instances.map (·.id)) (next : Drops instances ids rest) :
    Drops instances (id :: ids) rest
  | drop {instances spawned middle rest : List Instance} {id : Uuid} {ids : List Uuid}
      (running : id ∈ instances.map (·.id))
      (order : spawned.Perm ((apartFrom instances id).filter (·.parent = some id)))
      (below : Drops (apartFrom instances id) (spawned.map (·.id)) middle)
      (next : Drops middle ids rest) : Drops instances (id :: ids) rest

section Drops

variable {instances rest : List Instance} {id x : Uuid} {ids : List Uuid}

theorem mem_apartFrom {p : Instance} : p ∈ apartFrom instances id ↔ p ∈ instances ∧ p.id ≠ id := by
  rw [apartFrom, List.mem_filter, decide_eq_true_eq]

theorem Descends.of_apartFrom {a b : Uuid} (h : Descends (apartFrom instances id) a b) :
    Descends instances a b :=
  h.mono fun p hp => ⟨p, (mem_apartFrom.1 hp).1, rfl, rfl⟩

/-- What descends from a process is that process, or descends from one that it has spawned, without
using the process itself once more. -/
theorem descends_iff_apartFrom :
    Descends instances id x ↔ x = id ∨ ∃ c ∈ apartFrom instances id, c.parent = some id ∧
      Descends (apartFrom instances id) c.id x := by
  constructor
  · intro h
    induction h with
    | self => exact .inl rfl
    | @link p parent running hparent above ih =>
      by_cases hid : p.id = id
      · exact .inl hid
      have hp : p ∈ apartFrom instances id := mem_apartFrom.2 ⟨running, hid⟩
      rcases ih with rfl | ⟨c, hc, hcparent, hdesc⟩
      · exact .inr ⟨p, hp, hparent, .self⟩
      · exact .inr ⟨c, hc, hcparent, .link hp hparent hdesc⟩
  · rintro (rfl | ⟨c, hc, hcparent, hdesc⟩)
    · exact .self
    · exact Descends.trans (.link (mem_apartFrom.1 hc).1 hcparent .self) hdesc.of_apartFrom

/-- Dropping leaves the processes as they are, and in their order. -/
theorem Drops.sublist (h : Drops instances ids rest) : rest.Sublist instances := by
  induction h with
  | done => exact .refl _
  | skip _ _ ih => exact ih
  | drop _ _ _ _ below next => exact next.trans (below.trans List.filter_sublist)

/-- What is left is what descends from none of the processes that were dropped, in whatever order this
was done. -/
theorem Drops.mem_iff (h : Drops instances ids rest) {q : Instance} :
    q ∈ rest ↔ q ∈ instances ∧
      ∀ id ∈ ids, id ∈ instances.map (·.id) → ¬ Descends instances id q.id := by
  induction h generalizing q with
  | done => simp
  | skip gone next ih =>
    rw [ih, List.forall_mem_cons]
    exact and_congr_right fun _ => ⟨fun left => ⟨fun running => absurd running gone, left⟩, And.right⟩
  | @drop instances spawned middle rest id ids running order below next ihBelow ihNext =>
    -- what is left below the process is what does not descend from it
    have hmiddle : ∀ {p : Instance},
        p ∈ middle ↔ p ∈ instances ∧ ¬ Descends instances id p.id := by
      intro p
      rw [ihBelow, mem_apartFrom, descends_iff_apartFrom, not_or, and_assoc]
      refine and_congr_right fun _ => and_congr_right fun _ => ?_
      constructor
      · rintro left ⟨c, hc, hcparent, hdesc⟩
        refine left c.id (List.mem_map_of_mem ?_) (List.mem_map_of_mem hc) hdesc
        exact order.mem_iff.2 (List.mem_filter.2 ⟨hc, decide_eq_true hcparent⟩)
      · rintro none x hx - hdesc
        obtain ⟨c, hc, rfl⟩ := List.mem_map.1 hx
        obtain ⟨hc, hcparent⟩ := List.mem_filter.1 (order.mem_iff.1 hc)
        exact none ⟨c, hc, of_decide_eq_true hcparent, hdesc⟩
    rw [ihNext, hmiddle, List.forall_mem_cons, and_assoc]
    refine and_congr_right fun _ => ?_
    rw [forall_prop_of_true running]
    refine and_congr_right fun apart => forall₂_congr fun a _ => ?_
    constructor
    · intro left ha hdesc
      obtain ⟨p, hp, rfl⟩ := List.mem_map.1 ha
      have hapart : ¬ Descends instances id p.id := fun h => apart (h.trans hdesc)
      refine left (List.mem_map_of_mem (hmiddle.2 ⟨hp, hapart⟩)) ?_
      exact hdesc.survives (fun q hq hq' => hmiddle.2 ⟨hq, hq'⟩) apart
    · intro left ha hdesc
      obtain ⟨p, hp, rfl⟩ := List.mem_map.1 ha
      refine left (List.mem_map_of_mem (hmiddle.1 hp).1) ?_
      exact hdesc.mono fun q hq => ⟨q, (hmiddle.1 hq).1, rfl, rfl⟩

/-- Dropping comes to an end, as each process that is dropped leaves fewer. -/
theorem exists_drops (instances : List Instance) (ids : List Uuid) :
    ∃ rest, Drops instances ids rest := by
  induction hn : instances.length using Nat.strongRecOn generalizing instances ids with
  | ind n fewer =>
    -- within one number of processes, one identifier after the other
    have hle : instances.length ≤ n := Nat.le_of_eq hn
    clear hn
    induction ids generalizing instances with
    | nil => exact ⟨instances, .done⟩
    | cons id ids ih =>
      by_cases running : id ∈ instances.map (·.id)
      · have hlt : (apartFrom instances id).length < instances.length := by
          obtain ⟨p, hp, hid⟩ := List.mem_map.1 running
          exact List.length_filter_lt_length_iff_exists.2 ⟨p, hp, by simpa using hid⟩
        obtain ⟨middle, below⟩ := fewer _ (Nat.lt_of_lt_of_le hlt hle) (apartFrom instances id)
          (((apartFrom instances id).filter (·.parent = some id)).map (·.id)) rfl
        have hmiddle := below.sublist.length_le
        obtain ⟨rest, next⟩ := ih middle (by omega)
        exact ⟨rest, .drop running (.refl _) below next⟩
      · obtain ⟨rest, next⟩ := ih instances hle
        exact ⟨rest, .skip running next⟩

end Drops

namespace Server

variable {before after : Server} {r : Except ServiceError Snapshot} {request : Request}

/-- What a request leaves as it is, whether it succeeds or not, on any server that there can be. What is
stored stays, and every process that is not the one the request is for and does not descend from it
runs on unchanged. If the answer shows a process as finished, it is that one, and the processes that
are dropped are it and all that descend from it; dropping them one by one comes to an end, and leaves
the same processes in whatever order it is done. In all other cases no process is dropped, and only
the one that the request is for may have changed. -/
theorem frame_execute {scripts : List Script} (reached : Reached scripts before)
    (h : before.run (execute request) = (r, after)) (distinct : after.IdsDistinct) :
    after.storage = before.storage ∧
    (∀ q ∈ before.instances,
      (∀ x, request.subject? = some x → ¬ Descends before.instances x q.id) → q ∈ after.instances) ∧
    (∀ s, r = .ok s → s.finished = true →
      request.subject? = some s.id ∧ s.id ∈ before.instances.map (·.id) ∧
      (∀ q, q ∈ after.instances ↔
        q ∈ before.instances ∧ ¬ Descends before.instances s.id q.id) ∧
      (∃ rest, Drops before.instances [s.id] rest) ∧
      ∀ rest, Drops before.instances [s.id] rest → rest.Perm after.instances) ∧
    ((∀ s, r = .ok s → s.finished = false) → ∀ q ∈ before.instances,
      q.id ∈ after.instances.map (·.id) ∧
        (request.subject? ≠ some q.id → q ∈ after.instances)) := by
  have outcome := outcome_execute (reached.sound (.of_execute h distinct)) h distinct
  have stored := storage_execute before request
  rw [h] at stored
  refine ⟨stored, fun q hq => outcome.kept hq, ?_, fun going q hq => outcome.going going hq⟩
  rintro s rfl last
  obtain ⟨subject, running, -, left⟩ := outcome.dropped last
  refine ⟨subject, running, left, exists_drops _ _, fun rest drops => ?_⟩
  have nodup := before.distinct.of_map
  refine (List.perm_ext_iff_of_nodup (drops.sublist.nodup nodup) after.distinct.of_map).2 fun q => ?_
  rw [drops.mem_iff, left, List.forall_mem_singleton, forall_prop_of_true running]

/-- An order spawns a letter, and every letter an envelope. -/
def letterScripts : List Script :=
  [⟨"Order", "", [⟨"Address", none, [], false, false, false, ["Letter"]⟩]⟩,
    ⟨"Letter", "", [⟨"Text", none, [], false, false, false, ["Envelope"]⟩]⟩,
    ⟨"Envelope", "", [⟨"Stamp", none, [], false, false, false, []⟩]⟩]

/-- An order and another letter were started. -/
def letterServer : Server :=
  let order := (ofScripts letterScripts).run (execute (.start ⟨"Order", none, "en-US", .none⟩))
  (order.2.run (execute (.start ⟨"Letter", none, "en-US", .none⟩))).2

/-- The letter of the order is cancelled. Its envelope is dropped as well, and the order, the other letter
and the envelope of that one run on. -/
theorem frame_execute_cancelled :
    ∃ s after, letterServer.run (execute (.continue (.ofStep (.issued 1) "Letter" "Text") .cancel none)) =
        (.ok s, after) ∧ s.finished = true ∧
      letterServer.instances.map (·.id) = [.issued 3, .issued 4, .issued 0, .issued 1, .issued 2] ∧
      after.instances.map (·.id) = [.issued 3, .issued 4, .issued 0] ∧
      ∃ rest, Drops letterServer.instances [.issued 1] rest ∧ rest.Perm after.instances := by
  have h : letterServer.run
      (execute (.continue (.ofStep (.issued 1) "Letter" "Text") .cancel none)) = (.ok _, _) := rfl
  have reached : Reached letterScripts letterServer := .execute (.execute .new _) _
  obtain ⟨-, -, dropped, -⟩ := frame_execute reached h (idsDistinct_of_le (by decide))
  obtain ⟨-, -, -, ⟨rest, drops⟩, same⟩ := dropped _ rfl rfl
  exact ⟨_, _, h, rfl, rfl, rfl, rest, drops, same rest drops⟩

end Server

end Stepwise

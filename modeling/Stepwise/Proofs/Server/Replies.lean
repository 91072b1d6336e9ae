/-
# Runs of the scripted server

The requests that a server has executed since it was set up, each with the server that it was put to.
An answer shows a process and all those inside it; what it shows is where they stand, until the next
answer shows them elsewhere.

* `Snapshot.nodes` : what is inside a snapshot;
* `Reply`, `Served`, `Served.split` : runs, and their beginnings;
* `Outcome.origin` : where the processes come from that run after a request;
* `Told`, `Served.issued_of_told` : the identifiers that answers have shown;
* `lastShown`, `Served.agrees_of_lastShown` : the last answer for a running process shows its step.
-/
import Stepwise.Proofs.KeyMap
import Stepwise.Proofs.Server.Outcome

namespace Stepwise

/-! ## What is inside a snapshot -/

mutual
/-- A snapshot and all inside it. -/
def Snapshot.nodes : Snapshot → List Snapshot
  | s@⟨_, _, _, _, _, _, _, _, _, _, children, _⟩ => s :: Snapshot.nodesOfAll children
/-- Several snapshots and all inside them. -/
def Snapshot.nodesOfAll : List Snapshot → List Snapshot
  | [] => []
  | s :: rest => s.nodes ++ Snapshot.nodesOfAll rest
end

namespace Snapshot

theorem nodesOfAll_eq (ss : List Snapshot) : nodesOfAll ss = ss.flatMap nodes := by
  induction ss with
  | nil => rw [nodesOfAll]; rfl
  | cons s rest ih => rw [nodesOfAll, ih, List.flatMap_cons]

theorem nodes_eq (s : Snapshot) : s.nodes = s :: s.children.flatMap nodes := by
  rw [← nodesOfAll_eq]
  obtain ⟨_, _, _, _, _, _, _, _, _, _, children, _⟩ := s
  rw [nodes]

mutual
theorem map_id_nodes : ∀ s : Snapshot, s.nodes.map (·.id) = s.ids
  | ⟨_, _, _, _, _, _, _, _, _, _, children, _⟩ => by
    rw [nodes, ids, List.map_cons, map_id_nodesOfAll children]
theorem map_id_nodesOfAll : ∀ ss : List Snapshot, (nodesOfAll ss).map (·.id) = idsOfAll ss
  | [] => by rw [nodesOfAll, idsOfAll, List.map_nil]
  | s :: rest => by
    rw [nodesOfAll, idsOfAll, List.map_append, map_id_nodes s, map_id_nodesOfAll rest]
end

theorem mem_nodes_self (s : Snapshot) : s ∈ s.nodes := by
  rw [nodes_eq]
  exact List.mem_cons_self

theorem mem_nodes {s t : Snapshot} : t ∈ s.nodes ↔ t = s ∨ ∃ c ∈ s.children, t ∈ c.nodes := by
  rw [nodes_eq, List.mem_cons, List.mem_flatMap]

theorem mem_ids {s : Snapshot} {x : Uuid} : x ∈ s.ids ↔ ∃ t ∈ s.nodes, t.id = x := by
  rw [← map_id_nodes, List.mem_map]

theorem id_mem_ids {s t : Snapshot} (h : t ∈ s.nodes) : t.id ∈ s.ids := mem_ids.2 ⟨t, h, rfl⟩

end Snapshot

/-- Everything inside a snapshot shows the step of a process. -/
theorem Planted.agrees_of_mem {instances : List Instance} {parent : Option Uuid} {s t : Snapshot}
    (h : Planted instances parent s) (ht : t ∈ s.nodes) : ∃ p ∈ instances, t.Agrees p := by
  induction h with
  | @mk parent s p running agrees hparent children ih =>
    rcases Snapshot.mem_nodes.1 ht with rfl | ⟨c, hc, ht⟩
    · exact ⟨p, running, agrees⟩
    · exact ih c hc ht

namespace Server

/-! ## Runs -/

/-- A request, and the server that it was put to. -/
structure Reply where
  before : Server
  request : Request

/-- The answer to a request. -/
def Reply.answer (r : Reply) : Except ServiceError Snapshot := (r.before.run (execute r.request)).1

/-- The server after a request. -/
def Reply.after (r : Reply) : Server := (r.before.run (execute r.request)).2

theorem Reply.run (r : Reply) : r.before.run (execute r.request) = (r.answer, r.after) := rfl

/-- A server that was set up with scripts, and the requests that it has executed since. -/
inductive Served (scripts : List Script) : List Reply → Server → Prop where
  | new : Served scripts [] (ofScripts scripts)
  | withUser {log : List Reply} {server : Server} (served : Served scripts log server)
      (user password : String) : Served scripts log (server.withUser user password)
  | store {log : List Reply} {server : Server} (served : Served scripts log server)
      (key value : String) : Served scripts log (server.store key value)
  | failNext {log : List Reply} {server : Server} (served : Served scripts log server)
      (e : ServiceError) : Served scripts log (server.failNext e)
  | execute {log : List Reply} {server : Server} (served : Served scripts log server)
      (request : Request) : Served scripts (log ++ [⟨server, request⟩]) (Reply.after ⟨server, request⟩)

section Runs

variable {scripts : List Script} {log earlier later : List Reply} {r : Reply} {server : Server}

/-- A server with a history can be reached. -/
theorem Served.reached (served : Served scripts log server) : Reached scripts server := by
  induction served with
  | new => exact .new
  | withUser _ user password ih => exact ih.withUser user password
  | store _ key value ih => exact ih.store key value
  | failNext _ e ih => exact ih.failNext e
  | execute _ request ih => exact ih.execute request

/-- Each request was put to the server with the history until then. -/
theorem Served.split (served : Served scripts log server) (h : log = earlier ++ r :: later) :
    Served scripts earlier r.before ∧ r.after.issued ≤ server.issued := by
  induction served generalizing later with
  | new => simp at h
  | withUser _ _ _ ih => exact ih h
  | store _ _ _ ih => exact ih h
  | failNext _ _ ih => exact ih h
  | @execute log server served request ih =>
    have hle : server.issued ≤ (Reply.after ⟨server, request⟩).issued :=
      issued_le_execute server request
    rcases List.eq_nil_or_concat later with rfl | ⟨front, last, rfl⟩
    · obtain ⟨rfl, hr⟩ := List.append_inj' h rfl
      obtain rfl := List.singleton_inj.1 hr
      exact ⟨served, Nat.le_refl _⟩
    · rw [List.concat_eq_append, ← List.cons_append, ← List.append_assoc] at h
      obtain ⟨hlog, -⟩ := List.append_inj' h rfl
      exact (ih hlog).imp_right fun h => Nat.le_trans h hle

/-- The scripts are those that the server was set up with. -/
theorem Served.scripts_eq (served : Served scripts log server) :
    server.scripts = (ofScripts scripts).scripts := by
  induction served with
  | new => rfl
  | withUser _ _ _ ih => exact ih
  | store _ _ _ ih => exact ih
  | failNext _ _ ih => exact ih
  | @execute _ server _ request ih => exact (scripts_execute server request).trans ih

/-- A script is found by its own name. -/
theorem Served.name_of_script (served : Served scripts log server) {name : String} {script : Script}
    (h : server.scripts.get? name = some script) : script.name = name := by
  rw [served.scripts_eq] at h
  obtain ⟨s, -, heq⟩ := List.mem_map.1 (KeyMap.mem_of_get?_ofList h)
  obtain ⟨rfl, rfl⟩ := Prod.mk.inj heq
  rfl

end Runs

/-! ## What answers show -/

section Outcome

variable {before after : Server} {request : Request} {s t : Snapshot}

/-- All that an answer shows of a process that has not ended is where processes stand. -/
theorem Outcome.agrees_of_mem (outcome : Outcome before request (.ok s) after)
    (going : s.finished = false) (ht : t ∈ s.nodes) : ∃ p ∈ after.instances, t.Agrees p := by
  cases outcome with
  | started _ grown => exact (grown.planted s List.mem_cons_self).agrees_of_mem ht
  | ended => cases going
  | entered _ _ _ _ entered =>
    rcases Snapshot.mem_nodes.1 ht with rfl | ⟨c, hc, ht⟩
    · obtain ⟨q, hq, -, -, agrees⟩ := entered.shown
      exact ⟨q, hq, agrees⟩
    · exact (entered.planted c hc).agrees_of_mem ht

/-- What an answer shows of a process that runs afterwards is where it stands. -/
theorem Outcome.agrees (outcome : Outcome before request (.ok s) after) {p : Instance}
    (hp : p ∈ after.instances) (ht : t ∈ s.nodes) (hid : t.id = p.id) : t.Agrees p := by
  cases last : s.finished with
  | true =>
    obtain ⟨-, -, none, left⟩ := outcome.dropped last
    rw [Snapshot.nodes_eq, none, List.flatMap_nil, List.mem_singleton] at ht
    subst ht
    refine absurd ?_ ((left p).1 hp).2
    rw [hid]
    exact .self
  | false =>
    obtain ⟨q, hq, agrees⟩ := outcome.agrees_of_mem last ht
    rwa [after.eq_of_id hp hq (hid.symm.trans agrees.id)]

/-- A process that runs after a request has run before as it is, or is new and shown by any answer, or has
run before and the answer is about it. -/
theorem Outcome.origin {r : Except ServiceError Snapshot} (outcome : Outcome before request r after)
    {p : Instance} (hp : p ∈ after.instances) :
    p ∈ before.instances ∨
      (∃ n, before.issued ≤ n ∧ n < after.issued ∧ p.id = .issued n) ∧ (∀ s, r = .ok s → p.id ∈ s.ids) ∨
      p.id ∈ before.instances.map (·.id) ∧ ∃ s, r = .ok s ∧ s.id = p.id := by
  cases outcome with
  | failed added =>
    rw [added.instances, List.mem_append] at hp
    exact hp.symm.imp_right fun hp => .inl ⟨added.fresh p hp, nofun⟩
  | @started d s _ _ grown =>
    rcases List.mem_append.1 (grown.ids.mem_iff.1 (List.mem_map_of_mem hp)) with hnew | hold
    · refine .inr (.inl ⟨grown.new _ hnew, fun s' hs => ?_⟩)
      rw [List.flatMap_singleton] at hnew
      exact Except.ok.inj hs ▸ hnew
    · obtain ⟨q, hq, hid⟩ := List.mem_map.1 hold
      exact .inl (after.eq_of_id hp (grown.kept q hq) hid.symm ▸ hq)
  | ended _ _ _ left => exact .inl ((left p).1 hp).1
  | @entered _ _ _ p₀ _ s _ _ _ _ _ entered =>
    rcases List.mem_append.1 (entered.ids.mem_iff.1 (List.mem_map_of_mem hp)) with hnew | hold
    · refine .inr (.inl ⟨entered.new _ hnew, fun s' hs => ?_⟩)
      rw [← Except.ok.inj hs, Snapshot.ids_eq]
      exact List.mem_cons_of_mem _ hnew
    · obtain ⟨q, hq, hid⟩ := List.mem_map.1 hold
      by_cases same : q.id = p₀.id
      · obtain ⟨r, -, hr, -, agrees⟩ := entered.shown
        exact .inr (.inr ⟨hold, s, rfl, agrees.id.trans (hr.trans (same.symm.trans hid))⟩)
      · exact .inl (after.eq_of_id hp (entered.kept q hq same) hid.symm ▸ hq)

/-- A process that runs after a successful request, and that the answer does not show, has run before as
it is. -/
theorem Outcome.mem_before (outcome : Outcome before request (.ok s) after) {p : Instance}
    (hp : p ∈ after.instances) (unshown : p.id ∉ s.ids) : p ∈ before.instances := by
  rcases outcome.origin hp with running | ⟨-, shown⟩ | ⟨-, s', hs, hid⟩
  · exact running
  · exact absurd (shown s rfl) unshown
  · obtain rfl := Except.ok.inj hs
    exact absurd (hid ▸ Snapshot.id_mem_ids s.mem_nodes_self) unshown

/-- A process that runs after a failed request has run before as it is, or has a new identifier. -/
theorem Outcome.mem_before_or_new {e : ServiceError} (outcome : Outcome before request (.error e) after)
    {p : Instance} (hp : p ∈ after.instances) :
    p ∈ before.instances ∨ ∃ n, before.issued ≤ n ∧ n < after.issued ∧ p.id = .issued n := by
  rcases outcome.origin hp with running | ⟨new, -⟩ | ⟨-, s, hs, -⟩
  · exact .inl running
  · exact .inr new
  · cases hs

/-- The identifiers that an answer shows were given out. -/
theorem Outcome.issued_of_mem (outcome : Outcome before request (.ok s) after) (sound : before.Sound)
    (hle : before.issued ≤ after.issued) {x : Uuid} (hx : x ∈ s.ids) :
    ∃ n < after.issued, x = .issued n := by
  have running : ∀ p ∈ before.instances, ∃ n < after.issued, p.id = .issued n := by
    intro p hp
    obtain ⟨n, hn, hid, -⟩ := (sound p hp).numbered
    exact ⟨n, Nat.lt_of_lt_of_le hn hle, hid⟩
  cases outcome with
  | started _ grown =>
    obtain ⟨n, -, hlt, hxn⟩ := grown.new x (by rwa [List.flatMap_singleton])
    exact ⟨n, hlt, hxn⟩
  | @ended _ _ _ p q _ _ found resumes =>
    rw [Snapshot.ids_eq, List.mem_cons] at hx
    obtain rfl : x = q.id := hx.resolve_right nofun
    rw [resumes.id]
    exact running p (instance?_eq_some.1 found).1
  | @entered _ _ _ p _ _ _ found _ _ _ entered =>
    rw [Snapshot.ids_eq, List.mem_cons] at hx
    rcases hx with rfl | hx
    · obtain ⟨r, -, hr, -, agrees⟩ := entered.shown
      rw [agrees.id, hr]
      exact running p (instance?_eq_some.1 found).1
    · obtain ⟨n, -, hlt, hxn⟩ := entered.new x hx
      exact ⟨n, hlt, hxn⟩

end Outcome

/-- An answer that shows an identifier. -/
def Reply.Tells (r : Reply) (x : Uuid) : Prop := ∃ s, r.answer = .ok s ∧ x ∈ s.ids

/-- Some answer has shown an identifier. -/
def Told (log : List Reply) (x : Uuid) : Prop := ∃ r ∈ log, r.Tells x

/-- What an answer shows under an identifier. -/
def Reply.shown (r : Reply) (x : Uuid) : Option Snapshot :=
  match r.answer with
  | .ok s => s.nodes.find? (·.id = x)
  | .error _ => none

/-- What the last answer that shows an identifier shows under it. -/
def lastShown (log : List Reply) (x : Uuid) : Option Snapshot := (log.filterMap (·.shown x)).getLast?

section Told

variable {scripts : List Script} {log : List Reply} {r : Reply} {server : Server} {x : Uuid}
  {s : Snapshot}

theorem lastShown_concat (log : List Reply) (r : Reply) (x : Uuid) :
    lastShown (log ++ [r]) x = (r.shown x).or (lastShown log x) :=
  getLast?_filterMap_concat _ log r

theorem Reply.shown_eq_some (h : r.shown x = some s) :
    ∃ u, r.answer = .ok u ∧ s ∈ u.nodes ∧ s.id = x := by
  unfold Reply.shown at h
  split at h
  · next u answer => exact ⟨u, answer, List.mem_of_find?_eq_some h, by simpa using List.find?_some h⟩
  · cases h

theorem Reply.tells_of_shown (h : r.shown x = some s) : r.Tells x := by
  obtain ⟨u, answer, hs, rfl⟩ := Reply.shown_eq_some h
  exact ⟨u, answer, Snapshot.id_mem_ids hs⟩

theorem Reply.not_mem_ids_of_shown {u : Snapshot} (answer : r.answer = .ok u) (h : r.shown x = none) :
    x ∉ u.ids := by
  rw [Reply.shown, answer] at h
  intro hx
  obtain ⟨t, ht, rfl⟩ := Snapshot.mem_ids.1 hx
  simpa using List.find?_eq_none.1 h t ht

theorem told_of_lastShown (h : lastShown log x = some s) : Told log x := by
  obtain ⟨r, hr, shown⟩ := List.mem_filterMap.1 (List.mem_of_getLast? h)
  exact ⟨r, hr, Reply.tells_of_shown shown⟩

/-- What becomes of a request to a server with a history. -/
theorem Served.outcome (served : Served scripts log r.before) (distinct : r.after.IdsDistinct) :
    Outcome r.before r.request r.answer r.after :=
  outcome_execute (served.reached.sound (.of_execute r.run distinct)) r.run distinct

/-- The identifiers of running processes were given out. -/
theorem Served.issued_of_running (served : Served scripts log server) (distinct : server.IdsDistinct)
    (running : x ∈ server.instances.map (·.id)) : ∃ n < server.issued, x = .issued n := by
  obtain ⟨p, hp, rfl⟩ := List.mem_map.1 running
  obtain ⟨n, hn, hid, -⟩ := (served.reached.sound distinct p hp).numbered
  exact ⟨n, hn, hid⟩

/-- The identifiers that answers have shown were given out. -/
theorem Served.issued_of_told (served : Served scripts log server) (distinct : server.IdsDistinct)
    (told : Told log x) : ∃ n < server.issued, x = .issued n := by
  obtain ⟨r, hr, s, answer, hx⟩ := told
  obtain ⟨earlier, later, rfl⟩ := List.append_of_mem hr
  obtain ⟨before, hle⟩ := served.split rfl
  have distinct := distinct.of_le hle
  have outcome := before.outcome distinct
  rw [answer] at outcome
  obtain ⟨n, hn, rfl⟩ := outcome.issued_of_mem (before.reached.sound (.of_execute r.run distinct))
    (issued_le_execute _ _) hx
  exact ⟨n, Nat.lt_of_lt_of_le hn hle, rfl⟩

/-- The last answer that shows a running process shows its step. -/
theorem Served.agrees_of_lastShown (served : Served scripts log server)
    (distinct : server.IdsDistinct) {p : Instance} (hp : p ∈ server.instances)
    (shown : lastShown log p.id = some s) : s.Agrees p := by
  induction served generalizing p s with
  | new => cases hp
  | withUser _ _ _ ih => exact ih distinct hp shown
  | store _ _ _ ih => exact ih distinct hp shown
  | failNext _ _ ih => exact ih distinct hp shown
  | @execute log server served request ih =>
    generalize hr : Reply.mk server request = r at distinct hp shown
    obtain rfl : r.before = server := by rw [← hr]
    have outcome := served.outcome distinct
    have distinct' : r.before.IdsDistinct := .of_execute r.run distinct
    rw [lastShown_concat] at shown
    cases now : r.shown p.id with
    | some t =>
      rw [now, Option.some_or] at shown
      obtain rfl := Option.some.inj shown
      obtain ⟨u, answer, ht, hid⟩ := Reply.shown_eq_some now
      rw [answer] at outcome
      exact outcome.agrees hp ht hid
    | none =>
      rw [now, Option.none_or] at shown
      refine ih distinct' ?_ shown
      cases answer : r.answer with
      | ok u =>
        rw [answer] at outcome
        exact outcome.mem_before hp (Reply.not_mem_ids_of_shown answer now)
      | error e =>
        rw [answer] at outcome
        refine (outcome.mem_before_or_new hp).resolve_right ?_
        -- what a failed request leaves behind was not shown before
        exact distinct.not_new (served.issued_of_told distinct' (told_of_lastShown shown))

end Told

end Server

end Stepwise

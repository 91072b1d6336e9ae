/-
# What processes remember

A process remembers what it was given: the members of the input that it was started with, and what was
submitted with requests that went well. Under each name the last value counts, on whatever step it was
submitted. No request changes the values of a process but one that executes it with success.

* `Server.lastGiven` : the value that a process was given last, told from the history;
* `Server.Reply.Supplies`, `Server.Served.supplies` : where the values of a process come from;
* `Server.Served.get?_values` : a running process has the values that it was given last;
* `Server.Served.values_persist` : what answers show, in every run.
-/
import Stepwise.Proofs.Server.Accounting
import Stepwise.Proofs.Server.Remembering

namespace Stepwise

namespace Server

/-! ## What a process was given -/

/-- The value that a request has submitted for a process with success. -/
def Reply.submitted (r : Reply) (x : Uuid) (name : String) : Option Value :=
  match r.answer with
  | .ok _ => r.request.submitted x name
  | .error _ => none

/-- The input with which a request has started a process. -/
def Reply.input? (r : Reply) (x : Uuid) : Option Value :=
  match r.answer with
  | .ok s => if s.id = x then r.request.input? else none
  | .error _ => none

/-- The value of the last request that has submitted one under a name with success. -/
def lastSubmitted (log : List Reply) (x : Uuid) (name : String) : Option Value :=
  (log.filterMap (·.submitted x name)).getLast?

/-- The input with which a process was started. -/
def startInput (log : List Reply) (x : Uuid) : Option Value := log.findSome? (·.input? x)

/-- The value that a process was given last under a name: what was submitted, or else the member of the
input that it was started with. -/
def lastGiven (log : List Reply) (x : Uuid) (name : String) : Option Value :=
  (lastSubmitted log x name).or ((startInput log x).bind (·.member? name))

section History

variable {scripts : List Script} {log earlier later : List Reply} {r : Reply} {server : Server}
  {p : Instance} {x : Uuid} {name : String} {s t : Snapshot}

theorem lastSubmitted_concat (log : List Reply) (r : Reply) (x : Uuid) (name : String) :
    lastSubmitted (log ++ [r]) x name = (r.submitted x name).or (lastSubmitted log x name) :=
  getLast?_filterMap_concat _ log r

theorem startInput_concat (log : List Reply) (r : Reply) (x : Uuid) :
    startInput (log ++ [r]) x = (startInput log x).or (r.input? x) := by
  rw [startInput, List.findSome?_append, List.findSome?_singleton]
  rfl

/-- A request that has not started the process gives it what it submits. -/
theorem lastGiven_concat (unborn : r.input? x = none) :
    lastGiven (log ++ [r]) x name = (r.submitted x name).or (lastGiven log x name) := by
  rw [lastGiven, lastSubmitted_concat, startInput_concat, unborn, Option.or_none, Option.or_assoc]
  rfl

theorem Reply.id_of_subject (answer : r.answer = .ok s) (subject : r.request.subject? = some x) :
    s.id = x := by
  have run := r.run
  rw [answer] at run
  exact id_of_execute run subject

/-- What is submitted for a process is submitted by a request for it. -/
theorem Reply.submitted_eq_none (h : ∀ u event s, r.request = .continue u .execute event →
    r.answer = .ok s → u.id ≠ x) (name : String) : r.submitted x name = none := by
  unfold Reply.submitted Request.submitted
  split
  · next s answer =>
    split
    · next u event request => exact if_neg (h u event s request answer)
    · rfl
  · rfl

theorem Reply.tells_of_submitted {v : Value} (h : r.submitted x name = some v) : r.Tells x := by
  by_contra untold
  rw [Reply.submitted_eq_none] at h
  · cases h
  · rintro u event s request answer rfl
    have subject : r.request.subject? = some u.id := by rw [request]; rfl
    exact untold ⟨s, answer, Reply.id_of_subject answer subject ▸ Snapshot.id_mem_ids s.mem_nodes_self⟩

theorem Reply.tells_of_input? {v : Value} (h : r.input? x = some v) : r.Tells x := by
  unfold Reply.input? at h
  split at h
  · next s answer =>
    split at h
    · next hid => exact ⟨s, answer, hid ▸ Snapshot.id_mem_ids s.mem_nodes_self⟩
    · cases h
  · cases h

/-- Nothing was given to a process that no answer has told of. -/
theorem lastGiven_eq_none (untold : ¬ Told log x) (name : String) :
    lastSubmitted log x name = none ∧ startInput log x = none := by
  constructor
  · rw [lastSubmitted, List.getLast?_eq_none_iff, List.filterMap_eq_nil_iff]
    intro r hr
    by_contra given
    obtain ⟨v, given⟩ := Option.ne_none_iff_exists'.1 given
    exact untold ⟨r, hr, Reply.tells_of_submitted given⟩
  · rw [startInput, List.findSome?_eq_none_iff]
    intro r hr
    by_contra given
    obtain ⟨v, given⟩ := Option.ne_none_iff_exists'.1 given
    exact untold ⟨r, hr, Reply.tells_of_input? given⟩

/-- Where the values of a process come from that runs after a request. The request has added it, with the
input that it was started with, if any. Or it ran before, and has what the request submits for it and
otherwise what it had. -/
inductive Reply.Supplies (r : Reply) (p : Instance) : Prop where
  | born (new : ∃ n, r.before.issued ≤ n ∧ n < r.after.issued ∧ p.id = .issued n)
      (unnamed : ∀ name, r.submitted p.id name = none)
      (values : ∀ name, p.values.get? name = (r.input? p.id).bind (·.member? name))
  | kept (q : Instance) (running : q ∈ r.before.instances) (same : q.id = p.id)
      (unborn : r.input? p.id = none)
      (values : ∀ name, p.values.get? name = (r.submitted p.id name).or (q.values.get? name))

/-- A process that runs has no new identifier. -/
theorem Served.not_running_of_new (served : Served scripts log r.before)
    (distinct : r.after.IdsDistinct)
    (new : ∃ n, r.before.issued ≤ n ∧ n < r.after.issued ∧ x = .issued n) :
    x ∉ r.before.instances.map (·.id) :=
  fun running => distinct.not_new (served.issued_of_running (.of_execute r.run distinct) running) new

/-- The process that an answer is about has the values with which it shows its step. -/
theorem Served.supplies_of_answer (served : Served scripts log r.before) (distinct : r.after.IdsDistinct)
    (hp : p ∈ r.after.instances) (answer : r.answer = .ok s) (hid : s.id = p.id) : r.Supplies p := by
  have outcome := served.outcome distinct
  have run := r.run
  rw [answer] at outcome run
  have holds := holds_execute run (outcome.agrees hp s.mem_nodes_self hid).unfinished
  generalize hrequest : r.request = request at holds outcome
  cases holds with
  | @started d remembers =>
    obtain ⟨q, hq, step, values, shows, -⟩ := remembers.shown
    obtain rfl := r.after.eq_of_id hq hp (shows.id.symm.trans hid)
    refine .born ?_ (Reply.submitted_eq_none fun u event s request => ?_) fun name => ?_
    · cases outcome with
      | started _ grown =>
        rw [← hid]
        refine grown.new s.id ?_
        rw [List.flatMap_singleton]
        exact Snapshot.id_mem_ids s.mem_nodes_self
    · rw [hrequest] at request
      cases request
    · rw [values, Value.get?_ofList_entries, Reply.input?, answer, hrequest]
      dsimp only
      rw [if_pos hid]
      rfl
  | @resumed u mode event p₀ found remembers =>
    obtain ⟨q, hq, step, values, shows, -⟩ := remembers.shown
    obtain rfl := r.after.eq_of_id hq hp (shows.id.symm.trans hid)
    obtain ⟨running, same⟩ := instance?_eq_some.1 found
    have subject : r.request.subject? = some u.id := by rw [hrequest]; rfl
    have hu : u.id = q.id := (Reply.id_of_subject answer subject).symm.trans hid
    refine .kept p₀ running (same.trans hu) ?_ fun name => ?_
    · rw [Reply.input?, answer, hrequest]
      exact ite_self _
    · rw [values, Instance.get?_valuesAfter p₀ u mode event, Reply.submitted, answer, hrequest, hu]

/-- Every process that runs after a request was added by it or ran before, and has its values from
there. -/
theorem Served.supplies (served : Served scripts log r.before) (distinct : r.after.IdsDistinct)
    (hp : p ∈ r.after.instances) : r.Supplies p := by
  by_cases now : ∃ s, r.answer = .ok s ∧ s.id = p.id
  · obtain ⟨s, answer, hid⟩ := now
    exact served.supplies_of_answer distinct hp answer hid
  · -- the answer is about another process, so that nothing is given to this one
    have outcome := served.outcome distinct
    have unnamed := Reply.submitted_eq_none (r := r) (x := p.id) fun u event s request answer hid => by
      have subject : r.request.subject? = some u.id := by rw [request]; rfl
      exact now ⟨s, answer, (Reply.id_of_subject answer subject).trans hid⟩
    have unborn : r.input? p.id = none := by
      unfold Reply.input?
      split
      · next s answer => exact if_neg fun hid => now ⟨s, answer, hid⟩
      · rfl
    have as_before (running : p ∈ r.before.instances) : r.Supplies p :=
      .kept p running rfl unborn fun name => by rw [unnamed, Option.none_or]
    rcases outcome.origin hp with running | ⟨new, -⟩ | ⟨-, shown⟩
    · exact as_before running
    · refine (outcome.bare r.run hp fun s answer hid => now ⟨s, answer, hid⟩).elim as_before fun empty => ?_
      refine .born new unnamed fun name => ?_
      rw [empty, unborn]
      rfl
    · exact absurd shown now

/-- A running process has under each name the value that it was given last. -/
theorem Served.get?_values (served : Served scripts log server) (distinct : server.IdsDistinct)
    (hp : p ∈ server.instances) (name : String) : p.values.get? name = lastGiven log p.id name := by
  induction served generalizing p with
  | new => cases hp
  | withUser _ _ _ ih => exact ih distinct hp
  | store _ _ _ ih => exact ih distinct hp
  | failNext _ _ ih => exact ih distinct hp
  | @execute log server served request ih =>
    have distinct' : server.IdsDistinct := .of_execute (Reply.mk server request).run distinct
    cases served.supplies (r := ⟨server, request⟩) distinct hp with
    | born new unnamed values =>
      obtain ⟨unsubmitted, unstarted⟩ :=
        lastGiven_eq_none (served.not_told_of_new (r := ⟨server, request⟩) distinct new) name
      rw [values, lastGiven, lastSubmitted_concat, startInput_concat, unnamed, unsubmitted, unstarted]
      rfl
    | kept q running same unborn values =>
      rw [values, lastGiven_concat unborn, ih distinct' running, same]

/-- What a process has spawned for a request is shown with the defaults of its step, and has no other
values. -/
theorem Served.parameters_of_child (served : Served scripts earlier r.before)
    (distinct : r.after.IdsDistinct) (answer : r.answer = .ok s) {c : Snapshot} (hc : c ∈ s.children)
    (ht : t ∈ c.nodes) (blank : t.IsBlank r.before.scripts) (going : t.finished = false) :
    ∃ p ∈ r.after.instances, ∃ step, r.before.scripts.get? t.processName = some p.script ∧
      t.Shows p step ∧ t.parameters = step.parameters.map p.parameter := by
  have outcome := served.outcome distinct
  have run := r.run
  rw [answer] at outcome run
  have below : t.id ≠ s.id := by
    have once := outcome.nodup_ids
    rw [Snapshot.ids_eq, List.nodup_cons] at once
    exact fun heq => once.1 (heq ▸ List.mem_flatMap.2 ⟨c, hc, Snapshot.id_mem_ids ht⟩)
  have sound := served.reached.sound (.of_execute r.run distinct)
  have ht : t ∈ s.nodes := Snapshot.mem_nodes.2 (.inr ⟨c, hc, ht⟩)
  cases outcome.arrival served.titled sound distinct ht going with
  | started sprouted new =>
    obtain ⟨name, script, step, found, hstep, named, parameters⟩ := blank
    rw [served.name_of_script found] at named
    cases sprouted with
    | @mk _ _ _ p step' running scripted shows first =>
      obtain rfl : p.script = script := by
        rw [named, found] at scripted
        exact (Option.some.inj scripted).symm
      obtain rfl : step' = step := by
        have positioned := shows.positioned
        rw [first, hstep] at positioned
        exact (Option.some.inj positioned).symm
      have empty : p.values = .empty := by
        refine (outcome.bare run running fun s' hs' heq => ?_).resolve_left fun old => ?_
        · cases hs'
          exact below (shows.id.trans heq.symm)
        · exact served.not_running_of_new distinct new (shows.id ▸ List.mem_map_of_mem old)
      exact ⟨p, running, step', scripted, shows,
        parameters.trans (Instance.map_parameter_of_empty empty step').symm⟩
  | resumed _ subject resumes reared =>
    have same := Reply.id_of_subject answer subject
    exact absurd (reared.shows.id.trans (resumes.id.trans same.symm)) below

/-- Everything that an answer shows on a step is shown with the values that the process has. -/
theorem Served.parameters_of_mem (served : Served scripts earlier r.before)
    (distinct : r.after.IdsDistinct) (answer : r.answer = .ok s) (ht : t ∈ s.nodes)
    (going : t.finished = false) :
    ∃ p ∈ r.after.instances, ∃ step, r.before.scripts.get? t.processName = some p.script ∧
      t.Shows p step ∧ t.parameters = step.parameters.map p.parameter := by
  have outcome := served.outcome distinct
  have run := r.run
  rw [answer] at outcome run
  cases last : s.finished with
  | true =>
    obtain ⟨-, -, alone, -⟩ := outcome.dropped last
    rw [Snapshot.nodes_eq, alone, List.flatMap_nil, List.mem_singleton] at ht
    rw [ht, last] at going
    cases going
  | false =>
    obtain ⟨values, remembers⟩ := (holds_execute run last).remembers
    rcases Snapshot.mem_nodes.1 ht with rfl | ⟨c, hc, ht⟩
    · obtain ⟨q, hq, step, -, shows, named, parameters⟩ := remembers.shown
      refine ⟨q, hq, step, ?_, shows, parameters⟩
      have after : Served scripts (earlier ++ [r]) r.after := served.execute r.request
      obtain ⟨name, scripted⟩ := (after.reached.sound distinct q hq).scripted
      rw [named, after.name_of_script scripted, served.scripts_eq, ← after.scripts_eq, scripted]
    · exact served.parameters_of_child distinct answer hc ht (remembers.children c hc t ht) going

/-- A request that does not execute a process with success leaves it the values that it has. -/
theorem Served.values_eq (served : Served scripts earlier r.before) (distinct : r.after.IdsDistinct)
    (hp : p ∈ r.before.instances) {q : Instance} (hq : q ∈ r.after.instances) (hid : q.id = p.id)
    (other : ∀ u event s, r.request = .continue u .execute event → r.answer = .ok s → u.id ≠ p.id) :
    q.values = p.values ∧ ∀ name, lastGiven (earlier ++ [r]) p.id name = lastGiven earlier p.id name := by
  have unnamed := Reply.submitted_eq_none other
  cases served.supplies distinct hq with
  | born new =>
    rw [hid] at new
    exact absurd (List.mem_map_of_mem hp) (served.not_running_of_new distinct new)
  | kept p' running same unborn values =>
    rw [hid] at same unborn values
    obtain rfl := r.before.eq_of_id running hp same
    refine ⟨KeyMap.ext_get? fun name => ?_, fun name => ?_⟩
    · rw [values, unnamed, Option.none_or]
    · rw [lastGiven_concat unborn, unnamed, Option.none_or]

/-- Values persist, in every run. What an answer shows on a step has under each name the value that the
process was given last: what was submitted last for it with success, on whatever step, or else the
member of the input that it was started with, or else the default of the step. No request changes the
values of a running process but one that executes it with success. -/
theorem Served.values_persist (served : Served scripts log server) (distinct : server.IdsDistinct) :
    (∀ earlier r later s, log = earlier ++ r :: later → r.answer = .ok s →
      ∀ t ∈ s.nodes, t.finished = false → ∃ p ∈ r.after.instances, ∃ step,
        (ofScripts scripts).scripts.get? t.processName = some p.script ∧ t.Shows p step ∧
          t.parameters = step.parameters.map fun d =>
            ⟨d.name, d.label, (lastGiven (earlier ++ [r]) t.id d.name).getD d.default, d.required,
              false⟩) ∧
    (∀ earlier r later, log = earlier ++ r :: later → ∀ p ∈ r.before.instances,
      ∀ q ∈ r.after.instances, q.id = p.id →
        (∀ u event s, r.request = .continue u .execute event → r.answer = .ok s → u.id ≠ p.id) →
          q.values = p.values ∧
            ∀ name, lastGiven (earlier ++ [r]) p.id name = lastGiven earlier p.id name) ∧
    ∀ p ∈ server.instances, ∀ name, p.values.get? name = lastGiven log p.id name := by
  refine ⟨fun earlier r later s h answer t ht going => ?_, fun earlier r later h p hp q hq hid other => ?_,
    fun p hp name => served.get?_values distinct hp name⟩
  · obtain ⟨before, hle⟩ := served.split h
    have distinct := distinct.of_le hle
    have after : Served scripts (earlier ++ [r]) r.after := before.execute r.request
    obtain ⟨p, hp, step, scripted, shows, parameters⟩ :=
      before.parameters_of_mem distinct answer ht going
    rw [before.scripts_eq] at scripted
    refine ⟨p, hp, step, scripted, shows, parameters.trans (List.map_congr_left fun d _ => ?_)⟩
    rw [Instance.parameter, after.get?_values distinct hp, shows.id]
  · obtain ⟨before, hle⟩ := served.split h
    exact before.values_eq (distinct.of_le hle) hp hq hid other

/-- An order that asks where to send it. Its second step leads back to the first. -/
def parcelScripts : List Script :=
  [⟨"Order", "", [⟨"Address", none, [⟨"city", "City", .str "Oslo", true, none⟩,
      ⟨"street", "Street", .null, false, none⟩], false, false, false, []⟩,
    ⟨"Payment", none, [], false, true, false, []⟩]⟩]

/-- The order is started for a street. -/
def parcelStart : Reply :=
  ⟨ofScripts parcelScripts,
    .start ⟨"Order", some (.ofTree (.obj [("street", .str "Elm")])), "en-US", .none⟩⟩

/-- The city is submitted. -/
def parcelSend : Reply :=
  ⟨parcelStart.after, .continue { Snapshot.ofStep (.issued 0) "Order" "Address" with
    parameters := [.ofValue "city" (.str "Rome")] } .execute none⟩

/-- The order goes back to its first step. -/
def parcelBack : Reply :=
  ⟨parcelSend.after, .continue (.ofStep (.issued 0) "Order" "Payment") .rollback none⟩

/-- The first step shows the city that was submitted and the street that the order was started for. -/
theorem values_persist_parcelBack :
    Served parcelScripts [parcelStart, parcelSend, parcelBack] parcelBack.after ∧
      parcelBack.after.IdsDistinct ∧ ∃ s, parcelBack.answer = .ok s ∧ s.step = "Address" ∧
        (∃ p ∈ parcelBack.after.instances, ∃ step, s.Shows p step ∧
          s.parameters = step.parameters.map fun d =>
            ⟨d.name, d.label, (lastGiven [parcelStart, parcelSend, parcelBack] s.id d.name).getD d.default,
              d.required, false⟩) ∧
        s.parameters.map (·.value) = [.str "Rome", .str "Elm"] := by
  have served : Served parcelScripts [parcelStart, parcelSend, parcelBack] parcelBack.after :=
    .execute (.execute (.execute .new _) _) _
  have distinct : parcelBack.after.IdsDistinct := idsDistinct_of_le (by decide)
  obtain ⟨shown, -, -⟩ := served.values_persist distinct
  refine ⟨served, distinct, _, rfl, rfl, ?_, rfl⟩
  obtain ⟨p, hp, step, -, shows, parameters⟩ :=
    shown [parcelStart, parcelSend] parcelBack [] _ rfl rfl _ (Snapshot.mem_nodes_self _) rfl
  exact ⟨p, hp, step, shows, parameters⟩

end History

end Server

end Stepwise

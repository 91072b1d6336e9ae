/-
# Histories of clients

What happens to one client over time, whatever the clients of its children do meanwhile. A request
that the client has sent waits until it is answered; each is answered once at most, in any order.

* `Moment` : something that happens to a client, with what the client does;
* `ClientRun` : everything that can happen to a client from its beginning on, as long as requests are
  taken and each is answered once at most;
* `Course` : everything that can happen, whoever listens and whatever is answered;
* `requestsOf`, `lastBusy` : what effects tell about requests and about the panel's input;
* `Since` : what has happened and was not undone;
* `ClientRun.invariant` : what holds of a new client and is kept by every reaction always holds.
-/
import Stepwise.Proofs.Client.Descent

namespace Stepwise

/-! ## What effects tell -/

/-- The requests that effects hand over, with their clients. -/
def dispatchesOf (effects : List Effect) : List Dispatch :=
  effects.filterMap fun
    | .dispatch d => some d
    | _ => none

/-- The requests that effects hand over. -/
def requestsOf (effects : List Effect) : List Request := (dispatchesOf effects).map (·.request)

/-- What an effect tells the panel about its input. -/
def Effect.busy? : Effect → Option Bool
  | .call _ (.setBusy busy) _ => some busy
  | _ => none

/-- Was the panel told last to lock its input, or to unlock it? -/
def lastBusy (effects : List Effect) : Option Bool := (effects.filterMap Effect.busy?).getLast?

theorem dispatchesOf_append (xs ys : List Effect) :
    dispatchesOf (xs ++ ys) = dispatchesOf xs ++ dispatchesOf ys := List.filterMap_append ..

theorem mem_of_mem_dispatchesOf {effects : List Effect} {d : Dispatch}
    (h : d ∈ dispatchesOf effects) : .dispatch d ∈ effects := by
  obtain ⟨e, he, hd⟩ := List.mem_filterMap.1 h
  cases e with
  | dispatch d' =>
    obtain rfl : d' = d := Option.some.inj hd
    exact he
  | _ => cases hd

theorem mem_dispatchesOf_of_mem {effects : List Effect} {d : Dispatch}
    (h : .dispatch d ∈ effects) : d ∈ dispatchesOf effects :=
  List.mem_filterMap.2 ⟨_, h, rfl⟩

@[simp] theorem requestsOf_nil : requestsOf [] = [] := rfl

@[simp] theorem requestsOf_append (xs ys : List Effect) :
    requestsOf (xs ++ ys) = requestsOf xs ++ requestsOf ys := by
  rw [requestsOf, dispatchesOf_append, List.map_append]
  rfl

/-- The requests of one client among those that wait. -/
def waitingFor (id : ClientId) (ds : List Dispatch) : List Request :=
  (ds.filter fun d => d.client = id).map (·.request)

theorem mem_waitingFor {id : ClientId} {ds : List Dispatch} {d : Dispatch} (hd : d ∈ ds)
    (own : d.client = id) : d.request ∈ waitingFor id ds :=
  List.mem_map_of_mem (List.mem_filter.2 ⟨hd, decide_eq_true own⟩)

theorem waitingFor_append (id : ClientId) (xs ys : List Dispatch) :
    waitingFor id (xs ++ ys) = waitingFor id xs ++ waitingFor id ys := by
  rw [waitingFor, List.filter_append, List.map_append]
  rfl

/-- No request of a client waits if none of those that wait is its own. -/
theorem waitingFor_eq_nil {id : ClientId} {ds : List Dispatch} (h : ∀ d ∈ ds, d.client ≠ id) :
    waitingFor id ds = [] := by
  rw [waitingFor, List.filter_eq_nil_iff.2 fun d hd hid => h d hd (of_decide_eq_true hid)]
  rfl

/-- What is read off the effects of one client is what is read off all of them about that client. -/
theorem filterMap_about {β : Type} {read : Effect → Option β} (client : β → ClientId)
    (h : ∀ e x, read e = some x → e.client = client x) (id : ClientId) (effects : List Effect) :
    (about id effects).filterMap read =
      (effects.filterMap read).filter fun x => client x = id := by
  rw [about, List.filterMap_filter, List.filter_filterMap]
  refine congrArg (effects.filterMap ·) (funext fun e => ?_)
  cases hread : read e with
  | none => simp
  | some x =>
    rw [h e x hread]
    by_cases hid : client x = id
    · simp [Option.filter, hid]
    · simp [Option.filter, hid]

/-- What the effects of one client hand over are that client's requests. -/
theorem requestsOf_about (id : ClientId) (effects : List Effect) :
    requestsOf (about id effects) = waitingFor id (dispatchesOf effects) := by
  have hdispatches : dispatchesOf (about id effects) =
      (dispatchesOf effects).filter fun d => d.client = id := by
    refine filterMap_about Dispatch.client (fun e d hd => ?_) id effects
    cases e with
    | dispatch => cases hd; rfl
    | _ => cases hd
  rw [requestsOf, hdispatches, waitingFor]

@[simp] theorem lastBusy_append (xs ys : List Effect) :
    lastBusy (xs ++ ys) = (lastBusy ys).or (lastBusy xs) := by
  rw [lastBusy, List.filterMap_append, List.getLast?_append]
  rfl

variable {V : Type} [ProcessView V]

/-- Calls hand nothing over. -/
theorem dispatchesOf_callEffects (id : ClientId) (v : V) (calls : List ViewCall) :
    dispatchesOf (callEffects id v calls) = [] := by
  rw [List.eq_nil_iff_forall_not_mem]
  intro d hd
  obtain ⟨call, -, found, h⟩ := mem_callEffects (mem_of_mem_dispatchesOf hd)
  cases h

theorem dispatchesOf_emitted (ch : Channels) (e : LifecycleEvent ClientId) :
    dispatchesOf (emitted ch e) = [] := by
  unfold emitted
  split <;> rfl

@[simp] theorem requestsOf_call (id : ClientId) (call : ViewCall) (found : Bool)
    (effects : List Effect) : requestsOf (.call id call found :: effects) = requestsOf effects := rfl

@[simp] theorem requestsOf_callEffects (id : ClientId) (v : V) (calls : List ViewCall) :
    requestsOf (callEffects id v calls) = [] :=
  List.map_eq_nil_iff.2 (dispatchesOf_callEffects id v calls)

@[simp] theorem requestsOf_emitted (ch : Channels) (e : LifecycleEvent ClientId) :
    requestsOf (emitted ch e) = [] :=
  List.map_eq_nil_iff.2 (dispatchesOf_emitted ch e)

@[simp] theorem requestsOf_sendEffects (o : ClientState V) (r : Request) :
    requestsOf (o.sendEffects r) = [r] := rfl

@[simp] theorem requestsOf_endEffects (ch : Channels) (o : ClientState V) (s : Snapshot)
    (previousFinal : Bool) : requestsOf (o.endEffects ch s previousFinal) = [] := by
  rw [ClientState.endEffects, requestsOf_append, requestsOf_callEffects, requestsOf_emitted]
  rfl

/-- Calls that neither lock nor unlock the input. -/
theorem lastBusy_callEffects {calls : List ViewCall} (h : ∀ busy, .setBusy busy ∉ calls)
    (id : ClientId) (v : V) : lastBusy (callEffects id v calls) = none := by
  refine List.getLast?_eq_none_iff.2 (List.filterMap_eq_nil_iff.2 fun e he => ?_)
  obtain ⟨call, hmem, found, rfl⟩ := mem_callEffects he
  cases call with
  | setBusy busy => exact absurd hmem (h busy)
  | _ => rfl

theorem lastBusy_callEffects_cons {calls : List ViewCall} (h : ∀ busy, .setBusy busy ∉ calls)
    (busy : Bool) (id : ClientId) (v : V) :
    lastBusy (callEffects id v (.setBusy busy :: calls)) = some busy := by
  have hrest := lastBusy_callEffects h id (ProcessView.perform v (.setBusy busy)).2
  rw [callEffects_cons, ← List.singleton_append, lastBusy_append, hrest]
  rfl

@[simp] theorem lastBusy_emitted (ch : Channels) (e : LifecycleEvent ClientId) :
    lastBusy (emitted ch e) = none := by
  unfold emitted
  split <;> rfl

@[simp] theorem lastBusy_endEffects (ch : Channels) (o : ClientState V) (s : Snapshot)
    (previousFinal : Bool) : lastBusy (o.endEffects ch s previousFinal) = none := by
  have hcalls : lastBusy (callEffects o.id o.view
      (if previousFinal then [] else [.showSummary (.ofSnapshot s)])) = none := by
    refine lastBusy_callEffects (fun busy hmem => ?_) o.id o.view
    cases previousFinal <;> simp at hmem
  rw [ClientState.endEffects, lastBusy_append, lastBusy_emitted, hcalls]
  rfl

/-! ## Moments and runs -/

/-- Something that happens to a client, with what the client does. -/
structure Moment (V : Type) where
  before : Client V
  stimulus : Stimulus
  turn : Turn V (Option Outcome)

namespace Moment

/-- The effects that are the client's own. -/
def own (m : Moment V) : List Effect := about m.before.id m.turn.effects

/-- The requests that the client sends. -/
def requests (m : Moment V) : List Request := requestsOf m.own

end Moment

/-- What a client does when something happens to it. -/
def Client.face (c : Client V) (ch : Channels) (i : Stimulus) : Moment V :=
  ⟨c, i, i.act.run ch c⟩

/-- Everything that a client has left behind itself. -/
def ownLog (H : List (Moment V)) : List Effect := H.flatMap Moment.own

/-- A client that has done nothing. -/
def ClientState.fresh (id : ClientId) (parent : Option ClientId) (paused : Bool) (view : V) :
    ClientState V :=
  { (Client.idle id view).toClientState with parent, autoContinuePaused := paused }

/-- A run of one client: what has happened to it from the first moment on, the client now, and its
requests that wait, from the oldest on. -/
inductive ClientRun (ch : Channels) : List (Moment V) → Client V → List Request → Prop where
  | new (id : ClientId) (parent : Option ClientId) (paused : Bool) (view : V) :
    ClientRun ch [] ⟨.fresh id parent paused view, []⟩ []
  | act {H : List (Moment V)} {c : Client V} {waiting : List Request}
      (run : ClientRun ch H c waiting) (a : UserAction) :
    ClientRun ch (H ++ [c.face ch (.action a)]) (c.face ch (.action a)).turn.client
      (waiting ++ (c.face ch (.action a)).requests)
  | answer {H : List (Moment V)} {c : Client V} {older newer : List Request} {r : Request}
      (run : ClientRun ch H c (older ++ r :: newer)) (result : Except ServiceError Snapshot) :
    ClientRun ch (H ++ [c.face ch (.response result)]) (c.face ch (.response result)).turn.client
      (older ++ newer ++ (c.face ch (.response result)).requests)
  /-- The clients of children live on by themselves. -/
  | apart {H : List (Moment V)} {o : ClientState V} {kids : List (Client V)}
      {waiting : List Request} (run : ClientRun ch H ⟨o, kids⟩ waiting)
      (others : List (Client V)) : ClientRun ch H ⟨o, others⟩ waiting

/-- Everything that can happen to a client: users act, responses come whether or not they were asked
for, the clients of children live on by themselves, and those who listen go away. -/
inductive Course : Channels → List (Moment V) → Client V → Prop where
  | new (ch : Channels) (id : ClientId) (parent : Option ClientId) (paused : Bool) (view : V) :
    Course ch [] ⟨.fresh id parent paused view, []⟩
  | happens {ch : Channels} {H : List (Moment V)} {c : Client V} (course : Course ch H c)
      (i : Stimulus) : Course ch (H ++ [c.face ch i]) (c.face ch i).turn.client
  | apart {ch : Channels} {H : List (Moment V)} {o : ClientState V} {kids : List (Client V)}
      (course : Course ch H ⟨o, kids⟩) (others : List (Client V)) : Course ch H ⟨o, others⟩
  | deafened {ch ch' : Channels} {H : List (Moment V)} {c : Client V} (course : Course ch H c)
      (h : ch'.dispatchOpen = true → ch.dispatchOpen = true) : Course ch' H c

/-- A run of one client is a course with requests that are answered once at most. -/
theorem ClientRun.course {ch : Channels} {H : List (Moment V)} {c : Client V}
    {waiting : List Request} (run : ClientRun ch H c waiting) : Course ch H c := by
  induction run with
  | new id parent paused view => exact .new ch id parent paused view
  | act _ a ih => exact ih.happens (.action a)
  | answer _ result ih => exact ih.happens (.response result)
  | apart _ others ih => exact ih.apart others

omit [ProcessView V] in
/-- Splitting a history that ends with a moment, at some moment. -/
theorem split_concat {H A B : List (Moment V)} {k m : Moment V} (h : H ++ [k] = A ++ m :: B) :
    (B = [] ∧ A = H ∧ m = k) ∨ ∃ B', B = B' ++ [k] ∧ H = A ++ m :: B' := by
  rcases List.eq_nil_or_concat B with rfl | ⟨B', l, rfl⟩
  · obtain ⟨hH, hk⟩ := List.append_inj' h rfl
    exact .inl ⟨rfl, hH.symm, (List.singleton_inj.1 hk).symm⟩
  · rw [List.concat_eq_append, ← List.cons_append, ← List.append_assoc] at h
    obtain ⟨hH, hk⟩ := List.append_inj' h rfl
    obtain rfl := List.singleton_inj.1 hk
    exact .inr ⟨B', List.concat_eq_append, hH⟩

/-- After some earlier history something has happened, and nothing has undone it since. -/
def Since (happens : List (Moment V) → Moment V → Prop) (undoes : Moment V → Prop)
    (H : List (Moment V)) : Prop :=
  ∃ A m C, H = A ++ m :: C ∧ happens A m ∧ ∀ k ∈ C, ¬ undoes k

section Since

variable {happens : List (Moment V) → Moment V → Prop} {undoes undoes' : Moment V → Prop}
  {H : List (Moment V)}

omit [ProcessView V]

/-- At first nothing has happened. -/
theorem not_since_nil : ¬ Since happens undoes [] := by
  rintro ⟨A, m, C, h, -⟩
  simp at h

/-- What has happened and was not undone, after one more moment. -/
theorem since_concat (H : List (Moment V)) (m : Moment V) :
    Since happens undoes (H ++ [m]) ↔ happens H m ∨ ¬ undoes m ∧ Since happens undoes H := by
  constructor
  · rintro ⟨A, n, C, hH, hn, quiet⟩
    rcases split_concat hH with ⟨rfl, rfl, rfl⟩ | ⟨C', rfl, rfl⟩
    · exact .inl hn
    · exact .inr ⟨quiet m (by simp), A, n, C', rfl, hn, fun k hk => quiet k (by simp [hk])⟩
  · rintro (hm | ⟨none, A, n, C, rfl, hn, quiet⟩)
    · exact ⟨H, m, [], rfl, hm, nofun⟩
    · refine ⟨A, n, C ++ [m], by simp, hn, fun k hk => ?_⟩
      rcases List.mem_append.1 hk with hk | hk
      · exact quiet k hk
      · rw [List.mem_singleton.1 hk]
        exact none

/-- What was not undone goes on, as long as nothing undoes it. -/
theorem Since.append (h : Since happens undoes H) {K : List (Moment V)}
    (quiet : ∀ k ∈ K, ¬ undoes k) : Since happens undoes (H ++ K) := by
  obtain ⟨A, m, C, rfl, hm, earlier⟩ := h
  refine ⟨A, m, C ++ K, by simp, hm, fun k hk => ?_⟩
  exact (List.mem_append.1 hk).elim (earlier k) (quiet k)

/-- What less can undo lasts longer. -/
theorem Since.mono (h : Since happens undoes H) (less : ∀ k, undoes' k → undoes k) :
    Since happens undoes' H := by
  obtain ⟨A, m, C, rfl, hm, quiet⟩ := h
  exact ⟨A, m, C, rfl, hm, fun k hk hundo => quiet k hk (less k hundo)⟩

end Since

/-! ## Reactions along a run -/

/-- The moment, as the client's reaction sees it. -/
structure Moment.Shows (m : Moment V) (o : ClientState V) (i : Stimulus)
    (r : Except ClientError (Option Outcome)) (o' : ClientState V) (own : List Effect) : Prop where
  before : m.before.toClientState = o
  stimulus : m.stimulus = i
  result : m.turn.result = r
  after : m.turn.client.toClientState = o'
  own : m.own = own

variable {ch : Channels}

omit [ProcessView V] in
@[simp] theorem ownLog_append (H K : List (Moment V)) : ownLog (H ++ K) = ownLog H ++ ownLog K :=
  List.flatMap_append

omit [ProcessView V] in
@[simp] theorem ownLog_singleton (m : Moment V) : ownLog [m] = m.own := List.flatMap_singleton ..

/-- Whatever happens to a client, it reacts, and only the clients of new children are added. -/
theorem Client.face_shows (h : ch.dispatchOpen = true) (c : Client V) (i : Stimulus) :
    ∃ r o' own, Reaction ch c.toClientState i r o' own ∧
      (c.face ch i).Shows c.toClientState i r o' own ∧
      (c.face ch i).turn.client.children =
        c.children ++ newcomers ch c.awake (i.offspring c.toClientState) := by
  obtain ⟨o, kids⟩ := c
  obtain ⟨r, o', before, after, reaction, -, hrun⟩ := Stimulus.follows_run h i o kids
  refine ⟨r, o', _, reaction, ⟨rfl, rfl, ?_, ?_, ?_⟩, ?_⟩
  · exact congrArg Turn.result hrun
  · exact congrArg (·.client.toClientState) hrun
  · have hbefore : about o.id before = before := about_eq_self fun e he =>
      reaction.client_of_mem (List.mem_append_left _ (List.mem_append_left _ he))
    have hafter : about o.id after = after := about_eq_self fun e he =>
      reaction.client_of_mem (List.mem_append_right _ he)
    have hspawn := about_spawnEffects_self h o.awake (i.offspring o)
    show about o.id (i.act.run ch ⟨o, kids⟩).effects = _
    rw [hrun, about_append, about_append, hbefore, hafter]
    exact congrArg (before ++ · ++ after) hspawn
  · exact congrArg (·.client.children) hrun

/-- What holds of a new client and is kept by every reaction holds at every point of a run. -/
theorem ClientRun.invariant (h : ch.dispatchOpen = true)
    {P : List (Moment V) → ClientState V → List Request → Prop}
    (new : ∀ id parent paused view, P [] (.fresh id parent paused view) [])
    (act : ∀ {H : List (Moment V)} {o o' : ClientState V} {waiting : List Request} {m : Moment V}
      {a : UserAction} {r : Except ClientError (Option Outcome)} {own : List Effect},
      P H o waiting → m.Shows o (.action a) r o' own → Reaction ch o (.action a) r o' own →
      P (H ++ [m]) o' (waiting ++ requestsOf own))
    (answer : ∀ {H : List (Moment V)} {o o' : ClientState V} {older newer : List Request}
      {request : Request} {m : Moment V} {result : Except ServiceError Snapshot}
      {r : Except ClientError (Option Outcome)} {own : List Effect},
      P H o (older ++ request :: newer) → m.Shows o (.response result) r o' own →
      Reaction ch o (.response result) r o' own → P (H ++ [m]) o' (older ++ newer ++ requestsOf own))
    {H : List (Moment V)} {c : Client V} {waiting : List Request}
    (run : ClientRun ch H c waiting) : P H c.toClientState waiting := by
  induction run with
  | new id parent paused view => exact new id parent paused view
  | @act H c waiting _ a ih =>
    obtain ⟨r, o', own, reaction, shows, -⟩ := c.face_shows h (.action a)
    rw [Moment.requests, shows.own, shows.after]
    exact act ih shows reaction
  | @answer H c older newer request _ result ih =>
    obtain ⟨r, o', own, reaction, shows, -⟩ := c.face_shows h (.response result)
    rw [Moment.requests, shows.own, shows.after]
    exact answer ih shows reaction
  | apart _ _ ih => exact ih

/-- A run has gone through every point of its history. -/
theorem ClientRun.of_append {H K : List (Moment V)} {c : Client V} {waiting : List Request}
    (run : ClientRun ch (H ++ K) c waiting) : ∃ c waiting, ClientRun ch H c waiting := by
  -- the induction is on the run, so the history must not be split in its index
  generalize hall : H ++ K = all at run
  induction run generalizing K with
  | new id parent paused view =>
    obtain ⟨rfl, -⟩ := List.append_eq_nil_iff.1 hall
    exact ⟨_, _, .new id parent paused view⟩
  | @act H' c waiting run a ih =>
    rcases List.eq_nil_or_concat K with rfl | ⟨K', m, rfl⟩
    · rw [List.append_nil] at hall
      rw [hall]
      exact ⟨_, _, run.act a⟩
    · rw [List.concat_eq_append, ← List.append_assoc] at hall
      exact ih (List.append_inj' hall rfl).1
  | @answer H' c older newer r run result ih =>
    rcases List.eq_nil_or_concat K with rfl | ⟨K', m, rfl⟩
    · rw [List.append_nil] at hall
      rw [hall]
      exact ⟨_, _, run.answer result⟩
    · rw [List.concat_eq_append, ← List.append_assoc] at hall
      exact ih (List.append_inj' hall rfl).1
  | apart _ _ ih => exact ih hall

/-- Every moment of a run happened to the client as it was then; if it was a response, a request
waited. -/
theorem ClientRun.moment {A C : List (Moment V)} {m : Moment V} {c : Client V}
    {waiting : List Request} (run : ClientRun ch (A ++ m :: C) c waiting) :
    ∃ c waiting i, ClientRun ch A c waiting ∧ m = c.face ch i ∧
      ∀ result, i = .response result → waiting ≠ [] := by
  rw [← List.singleton_append, ← List.append_assoc] at run
  obtain ⟨c, waiting, run⟩ := run.of_append
  generalize hall : A ++ [m] = all at run
  induction run with
  | new => simp at hall
  | @act H c waiting run a _ =>
    obtain ⟨rfl, hm⟩ := List.append_inj' hall rfl
    exact ⟨c, waiting, .action a, run, List.singleton_inj.1 hm, nofun⟩
  | @answer H c older newer r run result _ =>
    obtain ⟨rfl, hm⟩ := List.append_inj' hall rfl
    exact ⟨c, _, .response result, run, List.singleton_inj.1 hm, fun _ _ => by simp⟩
  | apart _ _ ih => exact ih hall

/-- Without new children a client leaves behind only what is its own. -/
theorem Client.face_alone (h : ch.dispatchOpen = true) (c : Client V) (i : Stimulus)
    (alone : i.offspring c.toClientState = []) :
    (c.face ch i).turn.effects = (c.face ch i).own ∧
      (c.face ch i).turn.client.children = c.children := by
  obtain ⟨o, kids⟩ := c
  obtain ⟨r, o', before, after, reaction, -, hrun⟩ := Stimulus.follows_run h i o kids
  rw [show i.offspring o = [] from alone] at reaction hrun
  have heffects : (i.act.run ch ⟨o, kids⟩).effects = before ++ after := by
    rw [hrun]
    simp [spawnEffects]
  constructor
  · show (i.act.run ch ⟨o, kids⟩).effects = about o.id (i.act.run ch ⟨o, kids⟩).effects
    rw [heffects]
    refine (about_eq_self fun e he => reaction.client_of_mem ?_).symm
    simpa using he
  · show (i.act.run ch ⟨o, kids⟩).client.children = kids
    rw [hrun, newcomers, births]
    exact List.append_nil kids

end Stepwise

/-
# The panels mirror the shell

The shell draws its panels at few places: toolbar and messages when the cycle has come to rest, when the
main process starts and when the session is closed; the login panel when it begins, when a login is
rejected and when the session is closed. In between its state runs ahead of what is shown. No call
returns there: a call that is refused has changed nothing, and the cycle never ends in an error.

* `fillCalls`, `Board.items_fill` : a panel that is filled anew, and all others;
* `Shell.Greets` : what the cycle keeps of the login panel;
* `Shell.Mirrors`, `Shell.Greets.refresh` : what drawing the panels anew makes of it;
* `Shell.Greets.pump`, `Shell.Mirrors.of_call` : so it is after the cycle, and after every call;
* `panels_mirror` : what the panels hold between the calls.
-/
import Stepwise.Proofs.KeyMap
import Stepwise.Proofs.Shell.Calls

namespace Stepwise

/-! ## Panels that are filled anew -/

/-- The calls that empty a panel and put items into it. -/
def fillCalls (panel : String) (items : List PanelItem) : List PanelCall :=
  .clear panel :: items.map (.add panel)

/-- What the toolbar holds while somebody is logged in. -/
def toolbarItems (actions : ActionSet) : List PanelItem :=
  [.toolbar "process", .button "previous" "Previous" actions.previous,
    .button "next" "Next" actions.next, .button "reload" "Reload" actions.reload,
    .button "cancel" "Cancel" actions.cancel, .button "logout" "Log out" true]

/-- What the login panel holds, with the reason why a login was rejected. -/
def loginItems (error : Option String) : List PanelItem :=
  .label "Please log in" :: (error.map .label).toList ++ [.button "login" "Log in" true]

theorem toolbarCalls_eq (actions : ActionSet) (loggedIn : Bool) :
    toolbarCalls actions loggedIn =
      fillCalls Panel.toolbarName (if loggedIn then toolbarItems actions else []) := by
  cases loggedIn <;> rfl

theorem loginCalls_eq (error : Option String) :
    loginCalls error = fillCalls Panel.loginName (loginItems error) := by
  cases error <;> rfl

theorem hideLoginCalls_eq : hideLoginCalls = fillCalls Panel.loginName [] := rfl

theorem messageCalls_eq (messages : List String) :
    messageCalls messages = fillCalls Panel.messagesName (messages.map .label) := by
  rw [fillCalls, List.map_map]
  rfl

theorem loginItems_ne_nil (error : Option String) : loginItems error ≠ [] := List.cons_ne_nil _ _

namespace Board

variable (b : Board) (panel other : String)

theorem items_clear :
    (b.perform (.clear panel)).items other = if panel = other then [] else b.items other := by
  rw [items, perform, KeyMap.get?_erase]
  split <;> rfl

theorem items_add (item : PanelItem) : (b.perform (.add panel item)).items other =
    if panel = other then b.items other ++ [item] else b.items other := by
  rw [items, perform, KeyMap.get?_insert]
  split
  · next same =>
    subst same
    rfl
  · rfl

/-- Items that are added stand behind those of the calls before. -/
theorem items_addAll (items : List PanelItem) :
    ((items.map (PanelCall.add panel)).foldl perform b).items other =
      if panel = other then b.items other ++ items else b.items other := by
  induction items generalizing b with
  | nil => simp
  | cons item items ih =>
    rw [List.map_cons, List.foldl_cons, ih, items_add]
    split
    · rw [List.append_assoc, List.singleton_append]
    · rfl

/-- A panel that is filled anew holds the new items, and all others hold what they held. -/
theorem items_fill (items : List PanelItem) :
    ((fillCalls panel items).foldl perform b).items other =
      if panel = other then items else b.items other := by
  rw [fillCalls, List.foldl_cons, items_addAll, items_clear]
  split
  · rw [List.nil_append]
  · rfl

/-- Calls to process panels leave all other panels as they are. -/
theorem items_view (place : List Nat) (call : ViewCall) (found : Bool) :
    (b.apply (.view place call found)).items panel = b.items panel := by
  cases found with
  | false => rfl
  | true => cases place <;> rfl

theorem ofCalls_append (calls more : List ScreenCall) :
    ofCalls (calls ++ more) = more.foldl apply (ofCalls calls) := List.foldl_append

theorem items_ofCalls_fill (calls : List ScreenCall) (items : List PanelItem) :
    (ofCalls (calls ++ (fillCalls panel items).map .panel)).items other =
      if panel = other then items else (ofCalls calls).items other := by
  rw [ofCalls_append, List.foldl_map]
  exact items_fill _ panel other items

end Board

namespace Shell

variable {V σ α : Type} {shell after : Shell V σ}

/-- The screen that all calls so far have built. -/
def board (shell : Shell V σ) : Board := .ofCalls shell.drawn

/-- What clients do reaches process panels only. -/
theorem items_absorb (shell : Shell V σ) (effects : List Effect) (panel : String) :
    (shell.absorb effects).board.items panel = shell.board.items panel := by
  induction effects generalizing shell with
  | nil => rfl
  | cons e effects ih =>
    cases e with
    | call id call found =>
      refine (ih { shell with drawn := shell.drawn ++ [.view id.place call found] }).trans ?_
      rw [board, Board.ofCalls_append]
      exact Board.items_view _ panel _ _ _
    | dispatch d => exact ih { shell with pending := shell.pending ++ [d] }
    | event e => exact ih { shell with events := shell.events ++ [e] }

/-! ## What the panels show -/

/-- While nobody is logged in the login panel shows something. -/
def Greets (shell : Shell V σ) : Prop :=
  shell.phase = .loggedOut → shell.board.items Panel.loginName ≠ []

/-- The panels show what the shell says. -/
structure Mirrors (shell : Shell V σ) : Prop where
  toolbar : shell.board.items Panel.toolbarName =
    if shell.phase = .loggedOut then [] else toolbarItems shell.availableActions
  login : shell.board.items Panel.loginName ≠ [] ↔ shell.phase = .loggedOut
  messages : shell.board.items Panel.messagesName = shell.desk.messages.map .label

theorem Mirrors.greets (mirrors : shell.Mirrors) : shell.Greets := mirrors.login.2

theorem Greets.absorb (greets : shell.Greets) (effects : List Effect) :
    (shell.absorb effects).Greets := by
  obtain ⟨drawn, h⟩ := shell.absorb_eq effects
  have hphase : (shell.absorb effects).phase = shell.phase := by rw [h]
  intro free
  rw [items_absorb]
  exact greets (hphase.symm.trans free)

/-- Toolbar and messages are filled anew; the login panel is emptied unless it is needed. -/
theorem run_refresh_eq (shell : Shell V σ) :
    shell.run refresh = some (.ok (), { shell with
      drawn := shell.drawn ++
        (fillCalls Panel.toolbarName
          (if shell.phase = .loggedOut then [] else toolbarItems shell.availableActions)).map .panel ++
        (fillCalls Panel.messagesName (shell.desk.messages.map .label)).map .panel ++
        if shell.phase = .loggedOut then [] else (fillCalls Panel.loginName []).map .panel }) := by
  unfold refresh
  rw [run_bind_get, run_bind_of_ok (run_draw _ _), run_bind_of_ok (run_draw _ _), toolbarCalls_eq,
    messageCalls_eq, hideLoginCalls_eq]
  by_cases free : shell.phase = .loggedOut
  · simp only [free, ne_eq, not_true_eq_false, decide_false, Bool.false_eq_true, ↓reduceIte,
      List.append_nil]
    rfl
  · simp only [free, ne_eq, not_false_eq_true, decide_true, ↓reduceIte]
    rfl

/-- If the login panel greets whoever is to log in, drawing the others is enough. -/
theorem Greets.refresh (greets : shell.Greets) {r : Except ShellError Unit}
    (h : shell.run refresh = some (r, after)) : after.Mirrors := by
  rw [run_refresh_eq] at h
  cases h
  by_cases free : shell.phase = .loggedOut
  · rw [if_pos free, if_pos free, List.append_nil]
    refine ⟨?_, iff_of_true ?_ free, ?_⟩
    · rw [board, Board.items_ofCalls_fill, if_neg (by decide), Board.items_ofCalls_fill,
        if_pos rfl, if_pos free]
    · rw [board, Board.items_ofCalls_fill, if_neg (by decide), Board.items_ofCalls_fill,
        if_neg (by decide)]
      exact greets free
    · rw [board, Board.items_ofCalls_fill, if_pos rfl]
  · rw [if_neg free, if_neg free]
    refine ⟨?_, iff_of_false (not_not_intro ?_) free, ?_⟩
    · rw [board, Board.items_ofCalls_fill, if_neg (by decide), Board.items_ofCalls_fill,
        if_neg (by decide), Board.items_ofCalls_fill, if_pos rfl, if_neg free]
      rfl
    · rw [board, Board.items_ofCalls_fill, if_pos rfl]
    · rw [board, Board.items_ofCalls_fill, if_neg (by decide), Board.items_ofCalls_fill,
        if_pos rfl]

/-- Filling the login panel while nobody is logged in leaves the others as they are. -/
theorem mirrors_of_login (drawn : List ScreenCall) (error : Option String)
    (hdrawn : shell.drawn = drawn ++ (loginCalls error).map .panel)
    (free : shell.phase = .loggedOut)
    (toolbar : (Board.ofCalls drawn).items Panel.toolbarName = [])
    (messages : (Board.ofCalls drawn).items Panel.messagesName =
      shell.desk.messages.map .label) : shell.Mirrors := by
  rw [loginCalls_eq] at hdrawn
  refine ⟨?_, iff_of_true ?_ free, ?_⟩
  · rw [board, hdrawn, Board.items_ofCalls_fill, if_neg (by decide), toolbar, if_pos free]
  · rw [board, hdrawn, Board.items_ofCalls_fill, if_pos rfl]
    exact loginItems_ne_nil error
  · rw [board, hdrawn, Board.items_ofCalls_fill, if_neg (by decide), messages]

/-- Whatever the shell: once its session is closed, the panels show so. -/
theorem mirrors_of_run_closeSession {user : Option User} {r : Except ShellError Unit}
    (h : shell.run (closeSession user) = some (r, after)) : after.Mirrors := by
  obtain ⟨server, hclose⟩ := run_closeSession_eq shell user
  rw [hclose, loginCalls_eq] at h
  refine Greets.refresh (fun _ => ?_) h
  rw [board, Board.items_ofCalls_fill, if_pos rfl]
  exact loginItems_ne_nil none

/-! ## The cycle -/

/-- However an event is handled, the login panel is there if it is needed. -/
theorem Greets.handleEvent (greets : shell.Greets) {e : LifecycleEvent ClientId}
    {r : Except ShellError Unit} (h : shell.run (handleEvent e) = some (r, after)) :
    after.Greets := by
  unfold Shell.handleEvent at h
  rw [run_bind_get] at h
  cases e with
  | started => cases h; exact greets
  | updated id s =>
    dsimp only at h
    split at h <;> (rw [run_raise rfl] at h; cases h; exact greets)
  | finished id parent s =>
    dsimp only at h
    split at h
    · rw [run_bind_of_ok (run_raise rfl)] at h
      exact (mirrors_of_run_closeSession h).greets
    · cases h; exact greets
  | failed id parent error =>
    dsimp only at h
    split at h
    · cases h
      exact fun free => nomatch free
    · cases h; exact greets

theorem Greets.handleEvents {count : Nat} {r : Except ShellError Unit} (greets : shell.Greets)
    (h : shell.run (handleEvents count) = some (r, after)) : after.Greets := by
  induction count generalizing shell with
  | zero => cases h; exact greets
  | succ count ih =>
    rw [Shell.handleEvents, run_bind_get] at h
    cases hevents : shell.events with
    | nil => rw [hevents] at h; cases h; exact greets
    | cons e rest =>
      rw [hevents] at h
      dsimp only at h
      rw [run_bind_set] at h
      have shown : Greets { shell with events := rest } := greets
      rcases of_run_bind h with ⟨_, middle, hrun, h⟩ | ⟨_, hrun, -⟩
      · exact ih (shown.handleEvent hrun) h
      · exact shown.handleEvent hrun

theorem Greets.execute {request : Request} {r : Except ShellError (Except ServiceError Snapshot)}
    (greets : shell.Greets) (h : shell.run (execute request) = some (r, after)) : after.Greets := by
  unfold Shell.execute at h
  rw [run_bind_get] at h
  split at h
  · rw [run_request] at h
    cases h
    exact greets
  · cases h
    exact greets

variable [Toolkit V]

/-- When the cycle has come to rest, the panels show how the shell stands. -/
theorem Greets.pump (rounds : Nat) {r : Except ShellError Unit} (greets : shell.Greets)
    (h : shell.run (pump rounds) = some (r, after)) : after.Mirrors := by
  induction rounds generalizing shell with
  | zero => cases h
  | succ rounds ih =>
    obtain ⟨quiet, hdrain, -⟩ := run_handleEvents (P := fun _ : Shell V σ => True)
      (fun _ _ _ => trivial) shell.events.length shell trivial (Nat.le_refl _)
    have hquiet : quiet.Greets := greets.handleEvents hdrain
    have hdrain : shell.run drain = some (.ok (), quiet) := hdrain
    rw [Shell.pump, run_bind_of_ok hdrain, run_bind_get] at h
    cases hpending : quiet.pending with
    | nil =>
      rw [hpending] at h
      exact hquiet.refresh h
    | cons d rest =>
      rw [hpending] at h
      obtain ⟨result, asked, hexecute, -⟩ := run_execute { quiet with pending := rest } d.request
      have hasked : asked.Greets :=
        Greets.execute (show Greets { quiet with pending := rest } from hquiet) hexecute
      obtain ⟨answered, hdeliver, hnone, hsome⟩ := run_deliver asked d.client result
      dsimp only at h
      rw [run_bind_set, run_bind_of_ok hexecute, run_bind_of_ok hdeliver] at h
      refine ih ?_ h
      cases hclient : asked.client with
      | none => rwa [hnone hclient]
      | some c =>
        rw [hsome c hclient]
        exact hasked.absorb _

omit [Toolkit V] in
theorem Greets.operate {step : Act V α} {r : Except ShellError α} (greets : shell.Greets)
    (h : shell.run (operate step) = some (r, after)) : after.Greets := by
  cases hclient : shell.client with
  | none =>
    unfold Shell.operate at h
    rw [run_bind_get, hclient] at h
    cases h
    exact greets
  | some c =>
    rw [run_operate step hclient] at h
    cases h
    exact greets.absorb _

/-! ## Calls -/

/-- A login that is rejected is shown on the login panel, and one that is not leads to the cycle. -/
theorem Mirrors.of_login {rounds : Nat} {credentials : Credentials} {r : Except ShellError Unit}
    (mirrors : shell.Mirrors) (still : shell.Still)
    (h : shell.run (Shell.login rounds credentials) = some (r, after)) : after.Mirrors := by
  cases of_run_login still h with
  | refused => exact mirrors
  | rejected e free server =>
    refine mirrors_of_login shell.drawn (some e.message) rfl free ?_ mirrors.messages
    exact mirrors.toolbar.trans (if_pos free)
  | opened free occupied hpump =>
    -- in the middle of a session no login panel is needed
    exact Greets.pump rounds (fun h => absurd h occupied.begun) hpump

omit [Toolkit V] in
theorem Mirrors.of_logout {r : Except ShellError Unit} (mirrors : shell.Mirrors)
    (h : shell.run logout = some (r, after)) : after.Mirrors := by
  unfold Shell.logout at h
  rw [run_bind_get] at h
  split at h
  · cases h
    exact mirrors
  · rw [run_bind_of_ok (run_raise rfl)] at h
    exact mirrors_of_run_closeSession h

omit [Toolkit V] in
/-- Asking for the last user changes nothing that is shown. -/
theorem Mirrors.of_lastUser {r : Except ShellError (Option String)} (mirrors : shell.Mirrors)
    (h : shell.run lastUser? = some (r, after)) : after.Mirrors := by
  unfold lastUser? at h
  rw [run_bind_get] at h
  cases hstorage : shell.services.storage? with
  | none =>
    rw [hstorage] at h
    cases h
    exact mirrors
  | some storage =>
    rw [hstorage] at h
    dsimp only at h
    rw [run_bind_of_ok (run_request _ _)] at h
    cases hanswer : (storage.get lastUserKey shell.server).1 with
    | _ =>
      rw [hanswer] at h
      cases h
      exact ⟨mirrors.toolbar, mirrors.login, mirrors.messages⟩

/-- An action that is refused has changed nothing, and any other leads to the cycle or ends the
session. -/
theorem Mirrors.of_handle {rounds : Nat} {action : ShellAction} {r : Except ShellError Outcome}
    (mirrors : shell.Mirrors) (seated : shell.Seated False) (still : shell.Still)
    (h : shell.run (handle rounds action) = some (r, after)) : after.Mirrors := by
  unfold Shell.handle at h
  cases hstep : operation? (V := V) action with
  | none =>
    rw [hstep] at h
    rcases of_run_bind h with ⟨_, middle, hrun, h⟩ | ⟨_, hrun, -⟩
    · cases h
      exact mirrors.of_logout hrun
    · exact mirrors.of_logout hrun
  | some step =>
    rw [hstep] at h
    dsimp only at h
    obtain ⟨a, makes⟩ := makes_of_operation? hstep
    rcases seated.operates still makes with ⟨e, hrun⟩ | ⟨x, acted, hrun, -⟩
    · rw [run_bind_of_error hrun] at h
      cases h
      exact mirrors
    · rw [run_bind_of_ok hrun] at h
      have hacted : acted.Greets := mirrors.greets.operate hrun
      rcases of_run_bind h with ⟨_, middle, hpump, h⟩ | ⟨_, hpump, -⟩
      · cases h
        exact hacted.pump rounds hpump
      · exact hacted.pump rounds hpump

/-- Every call that returns, with a result or an error, leaves the panels as the shell says. -/
theorem Mirrors.of_call {call : ShellCall} {rounds : Nat} {r : Except ShellError Unit}
    (mirrors : shell.Mirrors) (seated : shell.Seated False) (still : shell.Still)
    (h : shell.run (call.act rounds) = some (r, after)) : after.Mirrors := by
  cases call with
  | login credentials => exact mirrors.of_login still h
  | logout => exact mirrors.of_logout h
  | lastUser =>
    rcases of_run_bind h with ⟨_, middle, hrun, h⟩ | ⟨_, hrun, -⟩
    · cases h
      exact mirrors.of_lastUser hrun
    · exact mirrors.of_lastUser hrun
  | handle action =>
    rcases of_run_bind h with ⟨_, middle, hrun, h⟩ | ⟨_, hrun, -⟩
    · cases h
      exact mirrors.of_handle seated still hrun
    · exact mirrors.of_handle seated still hrun

omit [Toolkit V] in
theorem mirrors_start (settings : Settings) (services : Services σ) (server : σ) :
    (start settings services server : Shell V σ).Mirrors :=
  mirrors_of_login [] none rfl rfl rfl rfl

end Shell

section Runs

variable {V σ : Type} [Toolkit V] {settings : Settings} {services : Services σ} {server : σ}
  {shell : Shell V σ}

theorem ShellRun.mirrors (run : ShellRun settings services server shell) : shell.Mirrors := by
  induction run with
  | start => exact Shell.mirrors_start _ _ _
  | call run call rounds h ih => exact ih.of_call run.seated.1 run.seated.2 h

/-- After every call that returns, with a result or an error and whatever the server answers, the panels
show how the shell stands. The toolbar is empty exactly while nobody is logged in; otherwise it holds the
toolbar of the process and five buttons, of which the first four are enabled as the actions of the main
process are available, and the last one always. The login panel is there exactly while nobody is logged
in. The message area holds the messages in their order. -/
theorem panels_mirror (run : ShellRun settings services server shell) :
    (shell.board.items Panel.toolbarName = [] ↔ shell.phase = .loggedOut) ∧
    (shell.phase ≠ .loggedOut → shell.board.items Panel.toolbarName =
      [.toolbar "process", .button "previous" "Previous" shell.availableActions.previous,
        .button "next" "Next" shell.availableActions.next,
        .button "reload" "Reload" shell.availableActions.reload,
        .button "cancel" "Cancel" shell.availableActions.cancel,
        .button "logout" "Log out" true]) ∧
    (shell.board.items Panel.loginName ≠ [] ↔ shell.phase = .loggedOut) ∧
    shell.board.labels Panel.messagesName = shell.desk.messages := by
  obtain ⟨toolbar, login, messages⟩ := run.mirrors
  refine ⟨?_, fun begun => ?_, login, ?_⟩
  · rw [toolbar]
    split
    · next free => exact iff_of_true rfl free
    · next begun => exact iff_of_false (List.cons_ne_nil _ _) begun
  · rw [toolbar, if_neg begun]
    rfl
  · rw [Board.labels, messages, List.filterMap_map]
    exact List.filterMap_some

end Runs

/-- Where the main process has failed, the messages say why, and nobody is asked to log in. -/
theorem panels_mirror_failed : ∃ shell : Shell Recording Unit,
    ShellRun .standard idleServices () shell ∧ shell.phase = .failed ∧
      ¬ shell.board.items Panel.loginName ≠ [] ∧
      shell.board.labels Panel.messagesName = [Capability.commandExecution.missingMessage] := by
  have run := (@ShellRun.start Recording Unit _ .standard idleServices ()).call
    (.login ⟨"alice", "secret"⟩) 3 rfl
  obtain ⟨-, -, login, messages⟩ := panels_mirror run
  refine ⟨_, run, rfl, fun h => absurd (login.1 h) (by decide), messages.trans rfl⟩

end Stepwise

/-
# Calls to the shell

Whoever holds a shell logs in and out, asks for the last user, and acts on the main process, in any
order and whatever the server answers. A call is refused before anything has happened, or it runs the
cycle until nothing waits; so every call finds the shell with nothing under way and leaves it so.

* `ShellCall`, `ShellRun` : everything that can happen to a shell;
* `Shell.Login`, `Shell.of_run_login` : what comes of a login;
* `Shell.Called`, `Shell.called_of_run` : what comes of a call;
* `Shell.Consistent`, `session_consistent` : what holds between the calls.
-/
import Stepwise.Proofs.Shell.Session

namespace Stepwise

/-! ## Operations of a client -/

section Operations

variable {V : Type}

/-- Every operation is what an action of the user makes a client do. -/
theorem Shell.makes_of_operation? [Toolkit V] {action : ShellAction} {step : Act V Outcome}
    (h : Shell.operation? action = some step) : ∃ a : UserAction, a.Makes step := by
  cases action with
  | next => cases h; exact ⟨.advance, UserAction.makes_of_act (fun _ => rfl) rfl⟩
  | previous => cases h; exact ⟨.rollback, UserAction.makes_of_act (fun _ => rfl) rfl⟩
  | cancel => cases h; exact ⟨.cancel, UserAction.makes_of_act (fun _ => rfl) rfl⟩
  | reload => cases h; exact ⟨.reload, UserAction.makes_of_act (fun _ => rfl) rfl⟩
  | confirm accepted =>
    cases h
    exact ⟨.answer accepted, UserAction.makes_of_act (fun _ => rfl) rfl⟩
  | edit name value =>
    cases h
    exact ⟨.edit name value, UserAction.makes_of_act (fun _ => rfl) rfl⟩
  | submit name value =>
    cases h
    exact ⟨.submit [(name, value)] ⟨.action, name⟩, UserAction.makes_of_act (fun _ => rfl) rfl⟩
  | pause => cases h; exact ⟨.pause, fun _ => rfl, fun _ => rfl, fun _ => rfl, nofun⟩
  | resume => cases h; exact ⟨.resume, UserAction.makes_of_act (fun _ => rfl) rfl⟩
  | logout => cases h

/-- A client that rests refuses without having done anything. -/
theorem Client.run_refused [ProcessView V] {c : Client V} {a : UserAction} {log : List Effect}
    (rests : Resting log c.toClientState [])
    (alone : Stimulus.offspring c.toClientState (.action a) = []) {e : ClientError}
    (refused : (a.act.run .open c).result = .error e) :
    (a.act.run .open c).client = c ∧ (a.act.run .open c).effects = [] := by
  have taken : Channels.open.dispatchOpen = true := rfl
  obtain ⟨r, o', own, reaction, shows, -⟩ := c.face_shows taken (.action a)
  obtain ⟨heffects, hkids⟩ := c.face_alone taken (.action a) alone
  obtain rfl : r = .error e := shows.result.symm.trans refused
  have undone : o' = c.toClientState ∧ own = [] := by
    cases reaction with
    | refused => exact ⟨rfl, rfl⟩
    | answerLost _ _ asked lost =>
      -- only a step that is shown has a question
      have hphase := rests.asked asked
      rcases lost with ended | ⟨-, none⟩
      · rw [hphase] at ended
        cases ended
      · have shown := rests.shown hphase
        rw [none] at shown
        cases shown
  obtain ⟨rfl, rfl⟩ := undone
  refine ⟨?_, heffects.trans shows.own⟩
  have hself : (a.act.run .open c).client.toClientState = c.toClientState := shows.after
  have hkids : (a.act.run .open c).client.children = c.children := hkids
  rw [← Client.mk_eta (a.act.run .open c).client, hself, hkids, Client.mk_eta]

end Operations

namespace Shell

variable {V σ : Type} [Toolkit V] {shell after : Shell V σ} {c : Client V}
  {handled : List (LifecycleEvent ClientId)}

/-! ## Logging in and out -/

omit [Toolkit V] in
/-- What the client of the main process does is taken over. -/
theorem run_operate {α : Type} (step : Act V α) (hclient : shell.client = some c) :
    shell.run (operate step) = some ((step.run .open c).result.mapError .client,
      { shell.absorb (step.run .open c).effects with client := some (step.run .open c).client }) := by
  unfold operate
  rw [run_bind_get, hclient]
  dsimp only
  rw [run_bind_of_ok (run_act _ step c), run_bind_modify]
  cases (step.run .open c).result <;> rfl

/-- A user who has just logged in gets a main process that is about to start. -/
theorem run_startMain (shell : Shell V σ) {user : User} (hphase : shell.phase = .active)
    (hsession : shell.desk.session = .ofUser user) (still : shell.Still) :
    ∃ after c, shell.run startMain = some (.ok (), after) ∧ after.Occupied c [] := by
  have hsome : shell.user = some user := by
    rw [Shell.user, hsession]
    rfl
  unfold startMain
  rw [run_bind_get, hsome]
  dsimp only
  obtain ⟨opened, hopened, same⟩ : ∃ opened, shell.run (do
      draw [.openProcess (descriptor shell.settings user).name]
      modify fun shell => { shell with opened := shell.opened + 1 }) = some (.ok (), opened) ∧
        shell.Same opened := ⟨_, rfl, rfl, rfl, rfl, rfl, rfl⟩
  -- a new client always starts
  rw [← bind_assoc, run_bind_of_ok hopened, run_bind_of_ok (run_act _ _ _),
    run_bind_of_ok (x := .sent) rfl, run_bind_modify]
  generalize ht : (Act.start (V := V) _).run .open (Client.withAutoContinue _ _) = t
  obtain ⟨after, hrun, refreshed⟩ :=
    run_refresh { opened.absorb t.effects with client := some t.client }
  have takes := (takes_absorb opened t).of_same same
  exact ⟨after, t.client, hrun, (Occupied.of_started hphase hsession still ht takes).same refreshed⟩

omit [Toolkit V] in
/-- Whether the user can be remembered or not, nothing else happens. -/
theorem run_rememberUser (shell : Shell V σ) (user : User) :
    ∃ after, shell.run (rememberUser user) = some (.ok (), after) ∧ shell.Same after := by
  unfold rememberUser
  rw [run_bind_get]
  split
  · exact ⟨_, rfl, rfl, rfl, rfl, rfl, rfl⟩
  · exact ⟨_, rfl, .refl shell⟩

/-- What comes of a login in so many rounds. -/
inductive Login (shell : Shell V σ) (rounds : Nat) : Except ShellError Unit → Shell V σ → Prop where
  /-- Somebody is logged in, or the server knows no users. -/
  | refused (e : ShellError) : Login shell rounds (.error e) shell
  /-- The server knows no such user; the login panel shows the reason. -/
  | rejected (e : ServiceError) (free : shell.phase = .loggedOut) (server : σ) :
    Login shell rounds (.error (.service e))
      { shell with server, drawn := shell.drawn ++ (loginCalls (some e.message)).map .panel }
  /-- A session begins, and with it the cycle. -/
  | opened {r : Except ShellError Unit} {opened after : Shell V σ} {c : Client V}
    (free : shell.phase = .loggedOut) (occupied : opened.Occupied c [])
    (hpump : opened.run (pump rounds) = some (r, after)) : Login shell rounds r after

/-- Nothing else comes of a login. What happens before the cycle happens without an error. -/
theorem of_run_login {rounds : Nat} {credentials : Credentials} {r : Except ShellError Unit}
    (still : shell.Still) (h : shell.run (login rounds credentials) = some (r, after)) :
    Login shell rounds r after := by
  unfold login at h
  rw [run_bind_get] at h
  by_cases free : shell.phase = .loggedOut
  · rw [if_neg (not_not_intro free)] at h
    cases hauthentication : shell.services.authentication? with
    | none =>
      rw [hauthentication] at h
      cases h
      exact .refused _
    | some authentication =>
      rw [hauthentication] at h
      dsimp only at h
      rw [run_bind_of_ok (run_request _ _)] at h
      cases hanswer : (authentication.login credentials shell.server).1 with
      | error e =>
        rw [hanswer] at h
        cases h
        exact .rejected e free _
      | ok user =>
        rw [hanswer] at h
        dsimp only at h
        obtain ⟨remembered, hremember, same⟩ := run_rememberUser
          { shell with server := (authentication.login credentials shell.server).2 } user
        rw [run_bind_of_ok hremember, run_bind_modify, run_bind_of_ok (run_draw _ _)] at h
        obtain ⟨started, c, hstart, occupied⟩ := run_startMain { remembered with
          desk := { remembered.desk with session := .ofUser user }
          phase := .active
          drawn := remembered.drawn ++ hideLoginCalls.map .panel } rfl rfl
          ⟨same.pending.trans still.pending, same.events.trans still.events⟩
        rw [run_bind_of_ok hstart] at h
        exact .opened free occupied h
  · rw [if_pos free] at h
    cases h
    exact .refused _

/-- A login is rejected, and then nothing but the login panel changes; or it opens a session. -/
theorem run_login {rounds : Nat} {credentials : Credentials} {r : Except ShellError Unit}
    (still : shell.Still) (h : shell.run (login rounds credentials) = some (r, after)) :
    (∃ e, r = .error e ∧ shell.Same after) ∨
      (r = .ok () ∧ shell.phase = .loggedOut ∧ Seated False after ∧ after.Still) := by
  cases of_run_login still h with
  | refused e => exact .inl ⟨e, rfl, .refl shell⟩
  | rejected e => exact .inl ⟨.service e, rfl, rfl, rfl, rfl, rfl, rfl⟩
  | opened free occupied hpump =>
    obtain ⟨rfl, seated, still⟩ :=
      run_pump (cyclic_seated False) rounds (.occupied occupied nofun) hpump
    exact .inr ⟨rfl, free, seated, still⟩

omit [Toolkit V] in
/-- A logout ends the session, whatever the server answers. -/
theorem run_logout (shell : Shell V σ) (begun : shell.phase ≠ .loggedOut) :
    ∃ after, shell.run logout = some (.ok (), after) ∧ after.Vacant := by
  obtain ⟨after, hclose, vacant⟩ := run_closeSession { shell with
    desk := (Panel.toolbar.raise .logout shell.desk).2 } shell.user rfl
  refine ⟨after, ?_, vacant⟩
  unfold logout
  rw [run_bind_get, if_neg begun, run_bind_of_ok (run_raise rfl), hclose]

omit [Toolkit V] in
/-- A logout is refused, or nothing is left of the session. -/
theorem of_run_logout {r : Except ShellError Unit} (h : shell.run logout = some (r, after)) :
    (∃ e, r = .error e ∧ after = shell) ∨ (r = .ok () ∧ after.Vacant) := by
  by_cases free : shell.phase = .loggedOut
  · unfold logout at h
    rw [run_bind_get, if_pos free] at h
    cases h
    exact .inl ⟨_, rfl, rfl⟩
  · obtain ⟨closed, hrun, vacant⟩ := run_logout shell free
    rw [hrun] at h
    cases h
    exact .inr ⟨rfl, vacant⟩

omit [Toolkit V] in
/-- Asking for the last user changes nothing but the server. -/
theorem run_lastUser {r : Except ShellError (Option String)}
    (h : shell.run lastUser? = some (r, after)) : shell.Same after := by
  unfold lastUser? at h
  rw [run_bind_get] at h
  cases hstorage : shell.services.storage? with
  | none =>
    rw [hstorage] at h
    cases h
    exact .refl shell
  | some storage =>
    rw [hstorage] at h
    dsimp only at h
    rw [run_bind_of_ok (run_request _ _)] at h
    cases hanswer : (storage.get lastUserKey shell.server).1 with
    | ok user =>
      rw [hanswer] at h
      cases h
      exact ⟨rfl, rfl, rfl, rfl, rfl⟩
    | error e =>
      rw [hanswer] at h
      cases h
      exact ⟨rfl, rfl, rfl, rfl, rfl⟩

/-! ## Acting on the main process -/

/-- An action of the user keeps the shell seated. -/
theorem Seated.acts {lost : Prop} {a : UserAction} {step : Act V Outcome}
    (seated : shell.Seated lost) (hclient : shell.client = some c) (makes : a.Makes step)
    (takes : shell.Takes (step.run .open c) after) : after.Seated lost := by
  cases seated with
  | vacant _ vacant => rw [vacant.client] at hclient; cases hclient
  | @occupied c handled occupied failed =>
    obtain rfl := Option.some.inj (occupied.client.symm.trans hclient)
    have acted : after.Occupied (step.run .open c).client handled :=
      occupied.takes takes fun run => run.acts makes
    refine .occupied acted fun hlost => ?_
    rw [makes.client]
    exact (Stimulus.action a).failed_run (failed hlost)

/-- If the client refuses an action, nothing has happened. -/
theorem Seated.refuses {a : UserAction} {step : Act V Outcome} {e : ClientError}
    (seated : shell.Seated False) (still : shell.Still) (hclient : shell.client = some c)
    (makes : a.Makes step) (refused : (step.run .open c).result = .error e) :
    shell.run (operate step) = some (.error (.client e), shell) := by
  cases seated with
  | vacant _ vacant => rw [vacant.client] at hclient; cases hclient
  | occupied occupied =>
    obtain rfl := Option.some.inj (occupied.client.symm.trans hclient)
    obtain ⟨log, rests⟩ := occupied.rests still (Client.mem_states_self _)
    obtain ⟨hself, heffects⟩ :=
      Client.run_refused rests (makes.alone _) (makes.refused _ e refused)
    rw [run_operate step hclient, refused, makes.effects, heffects, makes.client, hself, ← hclient]
    rfl

/-- An action is refused before anything has happened, or the client carries it out. -/
theorem Seated.operates {a : UserAction} {step : Act V Outcome} (seated : shell.Seated False)
    (still : shell.Still) (makes : a.Makes step) :
    (∃ e, shell.run (operate step) = some (.error e, shell)) ∨
      ∃ x acted, shell.run (operate step) = some (.ok x, acted) ∧
        ∀ lost, shell.Seated lost → acted.Seated lost := by
  cases hclient : shell.client with
  | none =>
    refine .inl ⟨.noActiveProcess, ?_⟩
    unfold operate
    rw [run_bind_get, hclient]
    rfl
  | some c =>
    cases hresult : (step.run .open c).result with
    | error e => exact .inl ⟨_, seated.refuses still hclient makes hresult⟩
    | ok x =>
      have hrun := run_operate step hclient
      rw [hresult] at hrun
      exact .inr ⟨x, _, hrun, fun lost seated =>
        seated.acts hclient makes (takes_absorb shell _)⟩

/-- An action is refused before anything has happened; or it ends the session; or it is carried out
until nothing waits. -/
theorem run_handle {rounds : Nat} {action : ShellAction} {r : Except ShellError Outcome}
    (seated : shell.Seated False) (still : shell.Still)
    (h : shell.run (handle rounds action) = some (r, after)) :
    (∃ e, r = .error e ∧ after = shell) ∨ (action = .logout ∧ ∃ x, r = .ok x ∧ after.Vacant) ∨
      (∃ x, r = .ok x ∧ after.Still ∧ ∀ lost, shell.Seated lost → after.Seated lost) := by
  unfold handle at h
  cases hstep : operation? (V := V) action with
  | none =>
    have hlogout : action = .logout := by
      cases action with
      | logout => rfl
      | _ => cases hstep
    rw [hstep] at h
    rcases of_run_bind h with ⟨⟨⟩, middle, hrun, h⟩ | ⟨e, hrun, rfl⟩
    · rcases of_run_logout hrun with ⟨e, h', -⟩ | ⟨-, vacant⟩
      · cases h'
      · cases h
        exact .inr (.inl ⟨hlogout, _, rfl, vacant⟩)
    · rcases of_run_logout hrun with ⟨_, -, rfl⟩ | ⟨h', -⟩
      · exact .inl ⟨e, rfl, rfl⟩
      · cases h'
  | some step =>
    rw [hstep] at h
    dsimp only at h
    obtain ⟨a, makes⟩ := makes_of_operation? hstep
    rcases seated.operates still makes with ⟨e, hrun⟩ | ⟨x, acted, hrun, kept⟩
    · rw [run_bind_of_error hrun] at h
      cases h
      exact .inl ⟨e, rfl, rfl⟩
    · rw [run_bind_of_ok hrun] at h
      -- one run of the cycle keeps both what is always kept and what is kept if the process is lost
      have pumped {lost : Prop} {r : Except ShellError Unit} {last : Shell V σ}
          (seated : shell.Seated lost) (hpump : acted.run (pump rounds) = some (r, last)) :=
        run_pump (cyclic_seated lost) rounds (kept lost seated) hpump
      rcases of_run_bind h with ⟨⟨⟩, middle, hpump, h⟩ | ⟨e, hpump, -⟩
      · cases h
        exact .inr (.inr ⟨x, rfl, (pumped seated hpump).2.2, fun lost seated =>
          (pumped seated hpump).2.1⟩)
      · obtain ⟨h', -⟩ := pumped seated hpump
        cases h'

end Shell

/-! ## Calls in any order -/

/-- What can be asked of a shell. -/
inductive ShellCall where
  | login (credentials : Credentials)
  | logout
  | lastUser
  | handle (action : ShellAction)

/-- The call is a logout. -/
inductive ShellCall.LogsOut : ShellCall → Prop where
  | logout : LogsOut .logout
  | action : LogsOut (.handle .logout)

section Runs

variable {V σ : Type} [Toolkit V] {settings : Settings} {services : Services σ} {server : σ}
  {shell after : Shell V σ} {c : Client V} {handled : List (LifecycleEvent ClientId)}
  {call : ShellCall} {r : Except ShellError Unit}

/-- What a shell does for a call, in so many rounds. -/
def ShellCall.act (rounds : Nat) : ShellCall → Shell.Run V σ Unit
  | .login credentials => Shell.login rounds credentials
  | .logout => Shell.logout
  | .lastUser => Shell.lastUser? >>= fun _ => pure ()
  | .handle action => Shell.handle rounds action >>= fun _ => pure ()

/-- The shells that there are after calls that have returned. -/
inductive ShellRun (settings : Settings) (services : Services σ) (server : σ) :
    Shell V σ → Prop where
  | start : ShellRun settings services server (.start settings services server)
  | call {shell after : Shell V σ} (run : ShellRun settings services server shell)
      (call : ShellCall) (rounds : Nat) {r : Except ShellError Unit}
      (h : shell.run (call.act rounds) = some (r, after)) : ShellRun settings services server after

namespace Shell

/-- What comes of a call to a shell with nothing under way. -/
inductive Called (shell : Shell V σ) :
    ShellCall → Except ShellError Unit → Shell V σ → Prop where
  /-- Nothing has happened. -/
  | refused (call : ShellCall) (e : ShellError) : Called shell call (.error e) shell
  /-- The server knows no such user, or it knows none at all. -/
  | rejected {after : Shell V σ} (credentials : Credentials) (e : ShellError)
      (same : shell.Same after) : Called shell (.login credentials) (.error e) after
  | told {after : Shell V σ} (r : Except ShellError Unit) (same : shell.Same after) :
    Called shell .lastUser r after
  | loggedIn {after : Shell V σ} (credentials : Credentials) (free : shell.phase = .loggedOut)
      (seated : after.Seated False) (still : after.Still) :
    Called shell (.login credentials) (.ok ()) after
  | loggedOut {after : Shell V σ} {call : ShellCall} (ends : call.LogsOut) (vacant : after.Vacant) :
    Called shell call (.ok ()) after
  /-- The session goes on, or its process has finished; one that had failed is as it was. -/
  | handled {after : Shell V σ} (action : ShellAction) (still : after.Still)
      (seated : ∀ lost, shell.Seated lost → after.Seated lost) :
    Called shell (.handle action) (.ok ()) after

/-- Nothing else comes of a call. -/
theorem called_of_run {rounds : Nat} (seated : shell.Seated False) (still : shell.Still)
    (h : shell.run (call.act rounds) = some (r, after)) : shell.Called call r after := by
  cases call with
  | login credentials =>
    rcases run_login still h with ⟨e, rfl, same⟩ | ⟨rfl, free, seated, still⟩
    · exact .rejected credentials e same
    · exact .loggedIn credentials free seated still
  | logout =>
    rcases of_run_logout h with ⟨e, rfl, rfl⟩ | ⟨rfl, vacant⟩
    · exact .refused .logout e
    · exact .loggedOut .logout vacant
  | lastUser =>
    rcases of_run_bind h with ⟨x, middle, hrun, h⟩ | ⟨e, hrun, rfl⟩
    · cases h
      exact .told _ (run_lastUser hrun)
    · exact .told _ (run_lastUser hrun)
  | handle action =>
    rcases of_run_bind h with ⟨x, middle, hrun, h⟩ | ⟨e, hrun, rfl⟩
    · cases h
      rcases run_handle seated still hrun with
        ⟨_, h', -⟩ | ⟨rfl, -, -, vacant⟩ | ⟨-, -, still, seated⟩
      · cases h'
      · exact .loggedOut .action vacant
      · exact .handled action still seated
    · rcases run_handle seated still hrun with ⟨-, -, rfl⟩ | ⟨-, _, h', -⟩ | ⟨_, h', -⟩
      · exact .refused _ e
      · cases h'
      · cases h'

/-- A call leaves nothing under way. -/
theorem Called.seated (called : shell.Called call r after) (seated : shell.Seated False)
    (still : shell.Still) : after.Seated False ∧ after.Still := by
  cases called with
  | refused => exact ⟨seated, still⟩
  | rejected _ _ same => exact ⟨(cyclic_seated False).same seated same, still.same same⟩
  | told _ same => exact ⟨(cyclic_seated False).same seated same, still.same same⟩
  | loggedIn _ _ seated still => exact ⟨seated, still⟩
  | loggedOut _ vacant => exact ⟨.vacant not_false vacant, vacant.still⟩
  | handled _ still kept => exact ⟨kept False seated, still⟩

/-- Only a logout ends the session of a main process that has failed. -/
theorem Called.failed (called : shell.Called call r after) (seated : shell.Seated False)
    (still : shell.Still) (failed : shell.phase = .failed) :
    after.phase = .failed ∨ call.LogsOut := by
  cases called with
  | refused => exact .inl failed
  | rejected _ _ same => exact .inl (same.phase.trans failed)
  | told _ same => exact .inl (same.phase.trans failed)
  | loggedIn _ free => rw [failed] at free; cases free
  | loggedOut ends => exact .inr ends
  | handled _ rest kept =>
    cases seated with
    | vacant _ vacant => rw [vacant.phase] at failed; cases failed
    | occupied occupied _ =>
      -- the cycle keeps a main process that was lost, and it shows
      have lost := (occupied.shown still).2.2 failed
      cases kept True (.occupied occupied fun _ => lost) with
      | vacant free => exact absurd trivial free
      | occupied occupied lost => exact .inl ((occupied.shown rest).2.1 (lost trivial))

/-! ## Between the calls -/

/-- What a shell says about itself goes together, and nothing is under way. -/
structure Consistent (shell : Shell V σ) : Prop where
  vacant : shell.phase = .loggedOut ↔ shell.client = none
  nobody : shell.client = none ↔ shell.user = none
  clean : shell.phase = .loggedOut → shell.desk.session.snapshots = [] ∧ shell.desk.messages = []
  failed : shell.phase = .failed ↔ ∃ c, shell.client = some c ∧ c.phase = .failed
  going : shell.phase = .active → ∃ c, shell.client = some c ∧ c.phase.isTerminal = false
  unsent : shell.pending = []
  unheard : shell.events = []
  free : ∀ c, shell.client = some c → ∀ d ∈ c.members, d.locked = false ∧ d.phase ≠ .running

omit [Toolkit V] in
/-- A shell without a session is consistent. -/
theorem Vacant.consistent (vacant : shell.Vacant) : shell.Consistent := by
  have absent : ∀ c, shell.client ≠ some c := by
    intro c h
    rw [vacant.client] at h
    cases h
  have nobody : shell.user = none := by
    rw [Shell.user, vacant.desk]
    rfl
  refine ⟨iff_of_true vacant.phase vacant.client, iff_of_true vacant.client nobody, fun _ => ?_,
    iff_of_false ?_ ?_, fun active => ?_, vacant.pending, vacant.events,
    fun c h => absurd h (absent c)⟩
  · rw [vacant.desk]
    exact ⟨rfl, rfl⟩
  · rw [vacant.phase]
    decide
  · rintro ⟨c, h, -⟩
    exact absent c h
  · rw [vacant.phase] at active
    cases active

/-- So is one in the middle of a session, when nothing waits. -/
theorem Occupied.consistent (occupied : shell.Occupied c handled) (still : shell.Still) :
    shell.Consistent := by
  obtain ⟨goes, failed⟩ := occupied.shown still
  have present : shell.client ≠ none := by
    rw [occupied.client]
    exact Option.some_ne_none c
  have begun := occupied.begun
  refine ⟨iff_of_false begun present,
    iff_of_false present (Option.isSome_iff_ne_none.1 occupied.user), fun h => absurd h begun,
    ?_, fun active => ⟨c, occupied.client, ?_⟩, still.pending, still.events, ?_⟩
  · rw [occupied.client, ← failed]
    constructor
    · exact fun h => ⟨c, rfl, h⟩
    · rintro ⟨d, hd, h⟩
      rwa [Option.some.inj hd]
  · cases hphase : c.phase with
    | finished => exact absurd hphase goes
    | failed => rw [failed.1 hphase] at active; cases active
    | _ => rfl
  · intro d hd member hmember
    obtain rfl := Option.some.inj (hd.symm.trans occupied.client)
    obtain ⟨log, rests⟩ := occupied.rests still (List.mem_map_of_mem hmember)
    exact ⟨rests.unlocked, rests.calm⟩

/-- A shell with nothing under way is consistent. -/
theorem Seated.consistent (seated : shell.Seated False) (still : shell.Still) :
    shell.Consistent := by
  cases seated with
  | vacant _ vacant => exact vacant.consistent
  | occupied occupied => exact occupied.consistent still

end Shell

/-- Between the calls nothing is under way. -/
theorem ShellRun.seated (run : ShellRun settings services server shell) :
    shell.Seated False ∧ shell.Still := by
  induction run with
  | start => exact ⟨.vacant not_false ⟨rfl, rfl, rfl, rfl, rfl⟩, ⟨rfl, rfl⟩⟩
  | call _ call rounds h ih => exact (Shell.called_of_run ih.1 ih.2 h).seated ih.1 ih.2

/-- After every call that returns, whatever the server answers, a shell is consistent: nobody is logged
in exactly if there is no main process, and then nothing is left of a session; it has failed exactly
if its main process has, and is active only with one that goes on; no request or event waits, and no
client of the tree has a request under way. A logout leads out of failure, and nothing else does. An
action that ends in an error has changed nothing, and a login that does neither session, messages nor
main process. Neither handling an event nor the cycle ever ends in an error. -/
theorem session_consistent (run : ShellRun settings services server shell) :
    shell.Consistent ∧
    (∀ (call : ShellCall) (rounds : Nat) (r : Except ShellError Unit) (after : Shell V σ),
      shell.run (call.act rounds) = some (r, after) → after.Consistent ∧
      (shell.phase = .failed → after.phase = .failed ∨ call.LogsOut) ∧
      (∀ action e, call = .handle action → r = .error e → after = shell) ∧
      (∀ credentials e, call = .login credentials → r = .error e →
        after.phase = shell.phase ∧ after.desk = shell.desk ∧ after.client = shell.client)) ∧
    (shell.phase ≠ .loggedOut → ∃ after,
      shell.run Shell.logout = some (.ok (), after) ∧ after.phase = .loggedOut) ∧
    (∀ (any : Shell V σ) (e : LifecycleEvent ClientId),
      ∃ after, any.run (Shell.handleEvent e) = some (.ok (), after)) ∧
    (∀ (any after : Shell V σ) (rounds : Nat) (r : Except ShellError Unit),
      any.run (Shell.pump rounds) = some (r, after) → r = .ok ()) := by
  obtain ⟨seated, still⟩ := run.seated
  refine ⟨seated.consistent still, fun call rounds r after h => ?_, fun begun => ?_,
    fun any e => ?_, fun any after rounds r h => ?_⟩
  · have called := Shell.called_of_run seated still h
    obtain ⟨seated', still'⟩ := called.seated seated still
    refine ⟨seated'.consistent still', called.failed seated still, ?_, ?_⟩
    · rintro action e rfl rfl
      cases called with
      | refused => rfl
    · rintro credentials e rfl rfl
      cases called with
      | refused => exact ⟨rfl, rfl, rfl⟩
      | rejected _ _ same => exact ⟨same.phase, same.desk, same.client⟩
  · obtain ⟨after, hrun, vacant⟩ := shell.run_logout begun
    exact ⟨after, hrun, vacant.phase⟩
  · obtain ⟨after, hrun, -⟩ := Shell.run_handleEvent any e
    exact ⟨after, hrun⟩
  · exact (Shell.still_of_run_pump h).1

end Runs

/-- A server that knows everybody and executes nothing. -/
def idleServices : Services Unit where
  execute? := none
  authentication? := some ⟨fun _ s => (.ok default, s), fun _ s => (.ok (), s)⟩
  storage? := none

/-- Whoever logs in to a server that executes nothing sees the main process fail, and can log out. -/
theorem session_consistent_idle : ∃ shell : Shell Recording Unit,
    ShellRun .standard idleServices () shell ∧ shell.phase = .failed ∧
      (∃ c, shell.client = some c ∧ c.phase = .failed) ∧
      ∃ after, shell.run Shell.logout = some (.ok (), after) ∧ after.phase = .loggedOut := by
  have run := (@ShellRun.start Recording Unit _ .standard idleServices ()).call
    (.login ⟨"alice", "secret"⟩) 3 rfl
  obtain ⟨consistent, -, leaves, -⟩ := session_consistent run
  exact ⟨_, run, rfl, consistent.failed.1 rfl, leaves (by decide)⟩

end Stepwise

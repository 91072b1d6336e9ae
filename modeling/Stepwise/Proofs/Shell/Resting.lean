/-
# The cycle comes to rest

On the scripted server every call to a shell returns, whatever the scripts, the errors that were
injected, and whatever waits. In each round one request is taken off, and in its place come lighter ones
only; or an error releases a cancel that a client has put off, and these become fewer. The weights of
what waits, all together, thus get smaller and smaller in the order of multisets, which is well-founded.

* `Shell.Rests` : with enough rounds a computation always returns the same;
* `Shell.burden` : the weights of what waits;
* `Shell.run_round` : each round takes something off;
* `Shell.rests_pump`, `cycle_rests` : so the cycle comes to rest, and every call returns.
-/
import Mathlib.Data.Multiset.DershowitzManna
import Mathlib.Tactic.Abel
import Stepwise.Proofs.Client.Forwarding
import Stepwise.Proofs.Server.Spending
import Stepwise.Proofs.Server.Weight
import Stepwise.Proofs.Shell.Calls
import Stepwise.Server.Services

namespace Stepwise

/-! ## Smaller multisets -/

/-- Some element is taken away. What replaces it is smaller, and some others may get smaller than it
too; or it may be smaller than a further element, one of several that are alike, that is gone. -/
theorem isDershowitzMannaLT_of_replaced {α β : Type} [Preorder α] {f g : β → α} {w top : α}
    {rest : Multiset β} {new : Multiset α} {m n : Nat} (hle : m ≤ n)
    (others : ∀ x ∈ rest, g x = f x ∨ g x < w) (light : ∀ y ∈ new, y < w ∨ m < n ∧ y < top) :
    Multiset.IsDershowitzMannaLT (rest.map g + new + .replicate m top)
      (w ::ₘ rest.map f + .replicate n top) := by
  classical
  let kept := rest.filter fun x => g x = f x
  let changed := rest.filter fun x => ¬ g x = f x
  have hrest : rest = kept + changed := (Multiset.filter_add_not _ rest).symm
  have hkept : kept.map g = kept.map f :=
    Multiset.map_congr rfl fun x hx => (Multiset.mem_filter.1 hx).2
  obtain ⟨k, rfl⟩ := Nat.exists_eq_add_of_le hle
  refine ⟨kept.map f + .replicate m top, changed.map g + new,
    w ::ₘ changed.map f + .replicate k top, by simp, ?_, ?_, ?_⟩
  · rw [hrest, Multiset.map_add, hkept]
    abel
  · rw [hrest, Multiset.map_add, Multiset.replicate_add, ← Multiset.singleton_add,
      ← Multiset.singleton_add]
    abel
  · have hw : w ∈ w ::ₘ changed.map f + .replicate k top := by simp
    intro y hy
    rcases Multiset.mem_add.1 hy with hy | hy
    · obtain ⟨x, hx, rfl⟩ := Multiset.mem_map.1 hy
      obtain ⟨hx, hne⟩ := Multiset.mem_filter.1 hx
      exact ⟨w, hw, (others x hx).resolve_left hne⟩
    · rcases light y hy with hlt | ⟨hlt, hy⟩
      · exact ⟨w, hw, hlt⟩
      · refine ⟨top, Multiset.mem_add.2 (.inr (Multiset.mem_replicate.2 ⟨by omega, rfl⟩)), hy⟩

/-- A request that a client sends by itself weighs as much as its process. -/
theorem Server.weight_of_forwards {server : Server} {x : Uuid} {r : Request} (h : r.Forwards x) :
    server.weight r = server.weightOf x := by
  cases h with
  | executes hid => rw [← hid]; exact weight_of_isOnward rfl server
  | cancels hid => rw [← hid]; exact weight_of_isOnward rfl server

namespace Shell

/-! ## Coming to rest -/

section Rests

variable {V σ α β : Type} {shell after : Shell V σ}

/-- With enough rounds the computation returns, with the same outcome however many they are. The services
are not exchanged. -/
def Rests (act : Nat → Run V σ α) (shell : Shell V σ) : Prop :=
  ∃ rounds r after, after.services = shell.services ∧
    ∀ enough, rounds ≤ enough → shell.run (act enough) = some (r, after)

/-- A computation that does not depend on the rounds. -/
theorem rests_of_run {a : Run V σ α} {r : Except ShellError α} (h : shell.run a = some (r, after))
    (same : after.services = shell.services) : Rests (fun _ => a) shell :=
  ⟨0, r, after, same, fun _ _ => h⟩

theorem rests_pure (shell : Shell V σ) (x : α) : Rests (fun _ => (pure x : Run V σ α)) shell :=
  rests_of_run (run_pure shell x) rfl

theorem rests_throw (shell : Shell V σ) (e : ShellError) :
    Rests (fun _ => (throw e : Run V σ α)) shell :=
  rests_of_run (show shell.run (throw e : Run V σ α) = some (.error e, shell) from rfl) rfl

theorem Rests.bind {a : Nat → Run V σ α} {f : Nat → α → Run V σ β} (ha : Rests a shell)
    (hf : ∀ x after, after.services = shell.services → Rests (fun n => f n x) after) :
    Rests (fun n => a n >>= f n) shell := by
  obtain ⟨m, r, middle, same, hrun⟩ := ha
  cases r with
  | error e => exact ⟨m, .error e, middle, same, fun n hn => run_bind_of_error (hrun n hn) (f n)⟩
  | ok x =>
    obtain ⟨k, r, after, same', hrun'⟩ := hf x middle same
    refine ⟨max m k, r, after, same'.trans same, fun n hn => ?_⟩
    rw [run_bind_of_ok (hrun n (by omega)), hrun' n (by omega)]

theorem Rests.get {f : Nat → Shell V σ → Run V σ β} (h : Rests (fun n => f n shell) shell) :
    Rests (fun n => get >>= f n) shell := h

/-- A computation that comes down to one on another shell. -/
theorem Rests.of_run_eq {a b : Nat → Run V σ α} (next : Shell V σ)
    (heq : ∀ n, shell.run (a n) = next.run (b n)) (same : next.services = shell.services)
    (h : Rests b next) : Rests a shell := by
  obtain ⟨rounds, r, after, same', hrun⟩ := h
  exact ⟨rounds, r, after, same'.trans same, fun n hn => (heq n).trans (hrun n hn)⟩

theorem Rests.modify {g : Shell V σ → Shell V σ} {f : Nat → Run V σ β}
    (same : (g shell).services = shell.services) (h : Rests f (g shell)) :
    Rests (fun n => modify g >>= fun _ => f n) shell :=
  .of_run_eq (g shell) (fun _ => rfl) same h

theorem Rests.set {next : Shell V σ} {f : Nat → Run V σ β} (same : next.services = shell.services)
    (h : Rests f next) : Rests (fun n => set next >>= fun _ => f n) shell := h.modify same

theorem rests_draw (shell : Shell V σ) (calls : List PanelCall) : Rests (fun _ => draw calls) shell :=
  rests_of_run (run_draw shell calls) rfl

theorem rests_request (shell : Shell V σ) (call : Service σ α) :
    Rests (fun _ => request call) shell :=
  rests_of_run (run_request shell call) rfl

theorem rests_push (shell : Shell V σ) (text : String) : Rests (fun _ => push text) shell :=
  rests_of_run (run_push shell text) rfl

theorem services_absorb (shell : Shell V σ) (effects : List Effect) :
    (shell.absorb effects).services = shell.services := by
  obtain ⟨drawn, h⟩ := shell.absorb_eq effects
  rw [h]

theorem rests_act (shell : Shell V σ) (step : Act V α) (c : Client V) :
    Rests (fun _ => act step c) shell :=
  rests_of_run (run_act shell step c) (services_absorb shell _)

theorem rests_raise (shell : Shell V σ) (panel : Panel) (n : Notice) :
    Rests (fun _ => raise panel n) shell := by
  cases h : (panel.raise n shell.desk).1 with
  | ok => exact rests_of_run (run_raise h) rfl
  | error e =>
    have hrun : shell.run (raise panel n) =
        some (.error e, { shell with desk := (panel.raise n shell.desk).2 }) := by
      rw [raise, run_bind_get]
      dsimp only
      rw [run_bind_set, h]
      rfl
    exact rests_of_run hrun rfl

theorem rests_refresh (shell : Shell V σ) : Rests (fun _ => refresh) shell := by
  refine .get (.bind (rests_draw _ _) fun _ middle _ => .bind (rests_draw _ _) fun _ after _ => ?_)
  split
  · exact rests_draw _ _
  · exact rests_pure _ _

theorem rests_closeSession (shell : Shell V σ) (user : Option User) :
    Rests (fun _ => closeSession user) shell := by
  obtain ⟨server, hclose⟩ := run_closeSession_eq shell user
  exact .of_run_eq _ (fun _ => hclose) rfl (rests_refresh _)

theorem rests_ofClient (shell : Shell V σ) (r : Except ClientError α) :
    Rests (fun _ => ofClient r) shell := by
  cases r with
  | ok x => exact rests_pure shell x
  | error e => exact rests_throw shell (.client e)

theorem rests_operate (shell : Shell V σ) (step : Act V α) : Rests (fun _ => operate step) shell := by
  refine .get ?_
  cases shell.client with
  | none => exact rests_throw shell _
  | some c =>
    exact .bind (rests_act _ _ _) fun _ _ _ => .modify rfl (rests_ofClient _ _)

theorem rests_logout (shell : Shell V σ) : Rests (fun _ => logout) shell := by
  refine .get ?_
  split
  · exact rests_throw shell _
  · exact .bind (rests_raise _ _ _) fun _ _ _ => rests_closeSession _ _

theorem rests_lastUser (shell : Shell V σ) : Rests (fun _ => lastUser?) shell := by
  refine .get ?_
  cases shell.services.storage? with
  | none => exact rests_throw shell _
  | some storage =>
    refine .bind (rests_request _ _) fun r after _ => ?_
    cases r with
    | ok user => exact rests_pure after user
    | error e => exact rests_throw after _

theorem rests_rememberUser (shell : Shell V σ) (user : User) :
    Rests (fun _ => rememberUser user) shell := by
  refine .get ?_
  cases shell.services.storage? with
  | none => exact rests_pure shell _
  | some storage => exact .bind (rests_request _ _) fun _ _ _ => rests_pure _ _

theorem rests_handleEvent (shell : Shell V σ) (e : LifecycleEvent ClientId) :
    Rests (fun _ => handleEvent e) shell := by
  refine .get ?_
  cases e with
  | started => exact rests_pure shell _
  | updated id s => exact rests_raise shell _ _
  | finished id parent s =>
    dsimp only
    split
    · exact .bind (rests_raise _ _ _) fun _ _ _ => rests_closeSession _ _
    · exact .modify rfl (rests_push _ _)
  | failed id parent error =>
    dsimp only
    split
    · exact .modify rfl (rests_push _ _)
    · exact rests_push shell _

theorem rests_handleEvents (count : Nat) (shell : Shell V σ) :
    Rests (fun _ => handleEvents count) shell := by
  induction count generalizing shell with
  | zero => exact rests_pure shell ()
  | succ count ih =>
    refine .get ?_
    cases shell.events with
    | nil => exact rests_pure shell ()
    | cons e rest => exact .set rfl (.bind (rests_handleEvent _ _) fun _ _ _ => ih _)

variable [Toolkit V]

theorem rests_startMain (shell : Shell V σ) : Rests (fun _ => startMain) shell := by
  refine .get ?_
  cases shell.user with
  | none => exact rests_throw shell _
  | some user =>
    exact .bind (rests_draw _ _) fun _ _ _ => .modify rfl (.bind (rests_act _ _ _) fun _ _ _ =>
      .bind (rests_ofClient _ _) fun _ _ _ => .modify rfl (rests_refresh _))

end Rests

/-! ## One round -/

section Rounds

variable {V : Type} {shell quiet after : Shell V Server} {now : Timestamp}

/-- The events that wait are handled, and the session may end with that; everything else waits on. -/
structure Drained (before after : Shell V Server) : Prop where
  services : after.services = before.services
  waits : after.pending = [] ∨
    after.pending = before.pending ∧ after.client = before.client ∧ after.server = before.server

theorem run_drain (shell : Shell V Server) :
    ∃ after, shell.run drain = some (.ok (), after) ∧ Drained shell after := by
  obtain ⟨after, hrun, waits, -⟩ := run_handleEvents
    (P := fun after : Shell V Server => after.pending = [] ∨
      after.pending = shell.pending ∧ after.client = shell.client ∧ after.server = shell.server)
    (fun waits _ handled => by
      cases handled with
      | closed _ _ vacant => exact .inl vacant.pending
      | noted _ client pending _ _ _ server =>
        rw [client, pending, server]
        exact waits)
    shell.events.length shell (.inr ⟨rfl, rfl, rfl⟩) (Nat.le_refl _)
  obtain ⟨rounds, r, after', same, hrests⟩ := rests_handleEvents shell.events.length shell
  cases hrun.symm.trans (hrests rounds (Nat.le_refl _))
  exact ⟨after, hrun, same, waits⟩

/-- How many clients have put a cancel off. -/
def deferrals (shell : Shell V Server) : Nat := shell.client.elim 0 Client.deferrals

/-- The weights of the requests that wait, and of the cancels that clients have put off. -/
def burden (shell : Shell V Server) : Multiset (ℕ ×ₗ ℕ) :=
  (shell.pending : Multiset Dispatch).map (fun d => shell.server.weight d.request) +
    .replicate shell.deferrals Server.heaviest

/-- Handling events changes the burden only if it ends the session. -/
theorem Drained.burden_eq (drained : Drained shell quiet) (h : quiet.pending ≠ []) :
    quiet.burden = shell.burden := by
  obtain ⟨pending, client, server⟩ := drained.waits.resolve_left h
  rw [burden, burden, deferrals, deferrals, pending, client, server]

/-- A request that is executed leaves the shell with a smaller burden, whoever takes the answer. -/
theorem burden_of_forwarded {d : Dispatch} {rest : List Dispatch} {server : Server}
    {result : Except ServiceError Snapshot} (hpending : quiet.pending = d :: rest)
    (weighed : Server.Weighed (quiet.server.weight d.request) quiet.server server result)
    (hserver : after.server = server) {new : List Dispatch}
    (hafter : after.pending = rest ++ new)
    (hle : after.deferrals ≤ quiet.deferrals)
    (light : ∀ e ∈ new, server.weight e.request < quiet.server.weight d.request ∨
      after.deferrals < quiet.deferrals ∧ server.weight e.request < Server.heaviest) :
    Multiset.IsDershowitzMannaLT after.burden quiet.burden := by
  subst hserver
  have hbefore : quiet.burden = quiet.server.weight d.request ::ₘ
      (rest : Multiset Dispatch).map (fun e => quiet.server.weight e.request) +
        .replicate quiet.deferrals Server.heaviest := by
    rw [burden, hpending, ← Multiset.cons_coe, Multiset.map_cons]
  have hafter : after.burden =
      (rest : Multiset Dispatch).map (fun e => after.server.weight e.request) +
        (new : Multiset Dispatch).map (fun e => after.server.weight e.request) +
          .replicate after.deferrals Server.heaviest := by
    rw [burden, hafter, ← Multiset.coe_add, Multiset.map_add]
  rw [hbefore, hafter]
  refine isDershowitzMannaLT_of_replaced hle (fun e _ => weighed.others e.request) fun y hy => ?_
  obtain ⟨e, he, rfl⟩ := Multiset.mem_map.1 hy
  exact light e (Multiset.mem_coe.1 he)

/-- The scripted server executes the request. -/
theorem run_execute_scripted (shell : Shell V Server)
    (scripted : shell.services = Server.services now) {request : Request}
    {r : Except ServiceError Snapshot} {server : Server}
    (h : shell.server.run (Server.execute request) = (r, server)) :
    shell.run (execute request) = some (.ok r, { shell with server }) := by
  have hcall : shell.services.execute? =
      some fun request server => server.run (Server.execute request) := by
    rw [scripted]
    rfl
  rw [execute, run_bind_get, hcall]
  dsimp only
  rw [run_request, h]

variable [Toolkit V]

/-- What a client that takes an answer sends on is about a process that the answer shows, or one cancel
less is put off. -/
theorem burden_of_routed {d : Dispatch} {rest : List Dispatch} {server : Server}
    {result : Except ServiceError Snapshot} {c : Client V} (hpending : quiet.pending = d :: rest)
    (weighed : Server.Weighed (quiet.server.weight d.request) quiet.server server result)
    (hclient : quiet.client = some c) :
    Multiset.IsDershowitzMannaLT
      { Shell.absorb { quiet with pending := rest, server }
          ((Act.route d.client result).run .open c).effects with
        client := some ((Act.route d.client result).run .open c).client }.burden quiet.burden := by
  have forwarded : Forwarded c ((Act.route d.client result).run .open c) result :=
    Act.forwarded_route rfl d.client result c
  generalize (Act.route d.client result).run .open c = t at forwarded
  obtain ⟨drawn, habsorb⟩ := Shell.absorb_eq { quiet with pending := rest, server } t.effects
  have hdeferrals : quiet.deferrals = c.deferrals := by
    rw [deferrals, hclient]
    rfl
  rw [habsorb]
  cases forwarded with
  | answered s forwards =>
    refine burden_of_forwarded hpending weighed rfl rfl (hdeferrals ▸ forwards.deferred)
      fun e he => ?_
    obtain ⟨x, hx, forwards⟩ := forwards.requests e he
    rw [Server.weight_of_forwards forwards]
    exact .inl (weighed.shown s rfl x hx)
  | silent _ none deferred =>
    refine burden_of_forwarded hpending weighed rfl rfl (hdeferrals ▸ deferred) fun e he => ?_
    rw [none] at he
    cases he
  | cancelled e requests fewer =>
    have hlt := hdeferrals ▸ fewer
    refine burden_of_forwarded hpending weighed rfl rfl (Nat.le_of_lt hlt) fun e he => ?_
    obtain ⟨x, forwards⟩ := requests e he
    rw [Server.weight_of_forwards forwards]
    exact .inr ⟨hlt, Server.weightOf_lt_heaviest server x⟩

/-- One round on the scripted server: a request is executed and its answer is delivered, and the burden
gets smaller. -/
theorem run_round (scripted : quiet.services = Server.services now) {d : Dispatch}
    {rest : List Dispatch} (hpending : quiet.pending = d :: rest) :
    ∃ after : Shell V Server, (∀ rounds, Shell.run { quiet with pending := rest }
        (execute d.request >>= fun result => deliver d.client result >>= fun _ => pump rounds) =
          after.run (pump rounds)) ∧
      after.services = quiet.services ∧ Multiset.IsDershowitzMannaLT after.burden quiet.burden := by
  cases hout : quiet.server.run (Server.execute d.request) with
  | mk result server =>
    have weighed := Server.weighed_execute hout
    have hexecute : Shell.run { quiet with pending := rest } (execute d.request) =
        some (.ok result, { quiet with pending := rest, server }) :=
      run_execute_scripted { quiet with pending := rest } scripted hout
    obtain ⟨after, hdeliver, hnone, hsome⟩ :=
      run_deliver { quiet with pending := rest, server } d.client result
    refine ⟨after, fun rounds => ?_, ?_⟩
    · rw [run_bind_of_ok hexecute, run_bind_of_ok hdeliver]
    · cases hclient : quiet.client with
      | none =>
        -- nobody is there to take the answer
        obtain rfl := hnone hclient
        refine ⟨rfl, burden_of_forwarded hpending weighed rfl (List.append_nil rest).symm ?_ nofun⟩
        exact Nat.le_refl _
      | some c =>
        obtain rfl := hsome c hclient
        exact ⟨services_absorb _ _, burden_of_routed hpending weighed hclient⟩

/-! ## The whole cycle -/

/-- On the scripted server the cycle returns if it is given enough rounds. -/
theorem rests_pump (scripted : shell.services = Server.services now) : Rests pump shell := by
  -- each round leaves a smaller burden
  have smaller : WellFounded fun next shell : Shell V Server =>
      Multiset.IsDershowitzMannaLT next.burden shell.burden :=
    InvImage.wf burden Multiset.wellFounded_isDershowitzMannaLT
  induction shell using smaller.induction with
  | _ shell ih =>
    obtain ⟨quiet, hdrain, drained⟩ := run_drain shell
    cases hpending : quiet.pending with
    | nil =>
      obtain ⟨rounds, r, after, same, hrun⟩ := rests_refresh quiet
      refine ⟨1, r, after, same.trans drained.services, fun enough henough => ?_⟩
      obtain ⟨rounds', rfl⟩ := Nat.exists_eq_add_of_le' henough
      rw [pump, run_bind_of_ok hdrain, run_bind_get, hpending]
      exact hrun rounds (Nat.le_refl _)
    | cons d rest =>
      have hquiet := drained.services.trans scripted
      obtain ⟨next, hnext, same, hless⟩ := run_round hquiet hpending
      rw [drained.burden_eq (hpending ▸ List.cons_ne_nil d rest)] at hless
      obtain ⟨rounds, r, after, same', hrun⟩ := ih next hless (same.trans hquiet)
      refine ⟨rounds + 1, r, after, (same'.trans same).trans drained.services,
        fun enough henough => ?_⟩
      obtain ⟨rounds', rfl⟩ := Nat.exists_eq_add_of_le' (Nat.le_of_add_left_le henough)
      rw [pump, run_bind_of_ok hdrain, run_bind_get, hpending]
      exact (hnext rounds').trans (hrun rounds' (by omega))

theorem rests_handle (scripted : shell.services = Server.services now) (action : ShellAction) :
    Rests (fun rounds => handle rounds action) shell := by
  unfold handle
  cases operation? (V := V) action with
  | none => exact .bind (rests_logout shell) fun _ _ _ => rests_pure _ _
  | some step =>
    exact .bind (rests_operate shell step) fun _ _ same =>
      .bind (rests_pump (same.trans scripted)) fun _ _ _ => rests_pure _ _

theorem rests_login (scripted : shell.services = Server.services now) (credentials : Credentials) :
    Rests (fun rounds => login rounds credentials) shell := by
  unfold login
  refine .get ?_
  by_cases free : shell.phase = .loggedOut
  · simp only [if_neg (not_not_intro free)]
    cases shell.services.authentication? with
    | none => exact rests_throw shell _
    | some authentication =>
      refine .bind (rests_request _ _) fun answer asked hasked => ?_
      cases answer with
      | error e => exact .bind (rests_draw _ _) fun _ _ _ => rests_throw _ _
      | ok user =>
        refine .bind (rests_rememberUser _ _) fun _ remembered hremembered => .modify rfl
          (.bind (rests_draw _ _) fun _ drawn hdrawn => .bind (rests_startMain _)
            fun _ started hstarted => ?_)
        have hservices : started.services = Server.services now := by
          rw [hstarted, hdrawn]
          exact (hremembered.trans hasked).trans scripted
        exact rests_pump hservices
  · simp only [if_pos free]
    exact rests_throw shell _

end Rounds

end Shell

/-- **The cycle comes to rest.** On the scripted server, whatever its scripts spawn, its processes and
its injected errors, and whatever the shell and its clients are about to do: the cycle handles events
and executes requests until nothing waits, and every call returns, always with the same outcome once it
has enough rounds. A request starts no more processes than the breadth of the scripts allows in four
generations. -/
theorem cycle_rests {V : Type} [Toolkit V] {shell : Shell V Server} {now : Timestamp}
    (scripted : shell.services = Server.services now) :
    (∃ rounds after, after.Still ∧
      ∀ enough, rounds ≤ enough → shell.run (Shell.pump enough) = some (.ok (), after)) ∧
    (∀ call : ShellCall, ∃ rounds r after,
      ∀ enough, rounds ≤ enough → shell.run (call.act enough) = some (r, after)) ∧
    ∀ (request : Request) (breadth : Nat), shell.server.SpawnsAtMost breadth →
      (∀ p ∈ shell.server.instances, p.script.SpawnsAtMost breadth) →
      (shell.server.run (Server.execute request)).2.issued ≤
        shell.server.issued + (breadth + 1) ^ Server.spawnLimit := by
  refine ⟨?_, fun call => ?_, fun request breadth bounded running =>
    Server.issued_execute_le bounded running request⟩
  · obtain ⟨rounds, r, after, -, hrun⟩ := Shell.rests_pump scripted
    obtain ⟨rfl, still⟩ := Shell.still_of_run_pump (hrun rounds (Nat.le_refl _))
    exact ⟨rounds, after, still, hrun⟩
  · have rests : Shell.Rests (fun rounds => call.act rounds) shell := by
      cases call with
      | login credentials => exact Shell.rests_login scripted credentials
      | logout => exact Shell.rests_logout shell
      | lastUser => exact .bind (Shell.rests_lastUser shell) fun _ _ _ => Shell.rests_pure _ _
      | handle action =>
        exact .bind (Shell.rests_handle scripted action) fun _ _ _ => Shell.rests_pure _ _
    obtain ⟨rounds, r, after, -, hrun⟩ := rests
    exact ⟨rounds, r, after, hrun⟩

/-- A process that goes on by itself, and spawns itself with each step. -/
def tangledScripts : List Script :=
  [⟨"Main", "", [⟨"First", none, [], true, false, false, ["Main"]⟩,
    ⟨"Second", none, [], true, false, false, ["Main", "Main"]⟩]⟩]

/-- Whoever logs in to a server with such a process waits for an end that comes. -/
theorem cycle_rests_tangled : ∃ rounds r after, ∀ enough, rounds ≤ enough →
    (Shell.start .standard (Server.services .epoch) (Server.ofScripts tangledScripts) :
      Shell Recording Server).run ((ShellCall.login ⟨"alice", "secret"⟩).act enough) =
        some (r, after) :=
  (cycle_rests rfl).2.1 _

end Stepwise

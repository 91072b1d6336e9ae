/-
# One client of a tree in exchange for others

A step of one client in a tree puts what the client has become in its place, or nothing if it is let
go. The clients above it hold what they held, and everything else is as it was. Trees are seen as lists
of trees here, so that a tree of which nothing is left needs no case of its own.

* `Exchanged` : in some trees, one client was exchanged for others;
* `StepsAt.exchanged` : a step of one client is an exchange, as long as no client above it is let go.
-/
import Stepwise.Proofs.Client.Tree

namespace Stepwise

variable {V α : Type}

/-- The same trees, with other clients in the place of one. -/
inductive Exchanged (c : Client V) (new : List (Client V)) :
    List (Client V) → List (Client V) → Prop where
  | here (older younger : List (Client V)) :
    Exchanged c new (older ++ c :: younger) (older ++ new ++ younger)
  | under (older younger : List (Client V)) {o : ClientState V} {kids kids' : List (Client V)}
      (step : Exchanged c new kids kids') :
    Exchanged c new (older ++ ⟨o, kids⟩ :: younger) (older ++ ⟨o, kids'⟩ :: younger)

/-- More trees on both sides. -/
theorem Exchanged.frame {c : Client V} {new ks ks' : List (Client V)} (h : Exchanged c new ks ks')
    (before after : List (Client V)) :
    Exchanged c new (before ++ ks ++ after) (before ++ ks' ++ after) := by
  cases h with
  | here older younger =>
    have : Exchanged c new _ _ := .here (before ++ older) (younger ++ after)
    simpa using this
  | @under older younger o _ _ step =>
    have := Exchanged.under (o := o) (before ++ older) (younger ++ after) step
    simpa using this

/-- The client was in one of the trees. -/
theorem Exchanged.mem {c : Client V} {new ks ks' : List (Client V)} (h : Exchanged c new ks ks') :
    c ∈ ks.flatMap Client.members := by
  induction h with
  | here older younger => exact List.mem_flatMap.2 ⟨c, by simp, c.mem_members_self⟩
  | @under older younger o kids kids' step ih =>
    obtain ⟨k, hk, hc⟩ := List.mem_flatMap.1 ih
    exact List.mem_flatMap.2 ⟨⟨o, kids⟩, by simp, Client.mem_members_mk.2 (.inr ⟨k, hk, hc⟩)⟩

/-- What is left of a client. -/
def Client.left (keep : Client V → Bool) (c : Client V) : List (Client V) :=
  if keep c then [c] else []

theorem Client.left_of_going {c : Client V} (going : c.phase.isTerminal = false) :
    c.left stays = [c] := by
  rw [left, stays, going]
  rfl

theorem Client.left_of_ended {c : Client V} (ended : c.phase.isTerminal = true) :
    c.left stays = [] := by
  rw [left, stays, ended]
  rfl

variable {id : ClientId} {keep : Client V → Bool} {act : Act V α} {ch : Channels}

/-- A step of one client exchanges it for what is left of it, as long as no client above it is let
go. -/
theorem StepsAt.exchanged {tree : Client V} {t : Turn V α} (step : StepsAt id keep act ch tree t)
    (stay : ∀ p ∈ tree.states, p.id ≠ id → ∀ kids, keep ⟨p, kids⟩ = true) :
    ∃ c ∈ tree.members, c.id = id ∧ t.effects = (act.run ch c).effects ∧
      Exchanged c ((act.run ch c).client.left keep) [tree] (t.client.left keep) := by
  induction step with
  | @here c hid =>
    have : Exchanged c ((act.run ch c).client.left keep) _ _ := .here [] []
    rw [List.append_nil, List.nil_append] at this
    exact ⟨c, c.mem_members_self, hid, rfl, this⟩
  | @under o older younger k t hid step ih =>
    have hk : k ∈ older ++ k :: younger := by simp
    obtain ⟨c, hc, hcid, heffects, ex⟩ := ih fun p hp =>
      stay p (Client.mem_states_mk.2 (.inr ⟨k, hk, hp⟩))
    refine ⟨c, Client.mem_members_mk.2 (.inr ⟨k, hk, hc⟩), hcid, heffects, ?_⟩
    have hstay := stay o (Client.mem_states_mk.2 (.inl rfl)) hid
      (older ++ if keep t.client then t.client :: younger else younger)
    have hkids : (older ++ if keep t.client then t.client :: younger else younger) =
        older ++ t.client.left keep ++ younger := by
      unfold Client.left
      split <;> simp
    have below := ex.frame older younger
    rw [← hkids, List.append_assoc, List.singleton_append] at below
    have whole := Exchanged.under (o := o) [] [] below
    unfold Client.left at whole ⊢
    rw [if_pos hstay]
    exact whole

end Stepwise

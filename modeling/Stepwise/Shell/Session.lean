/-
# Sessions

A session holds the user who is logged in and the latest snapshot of every process that runs.
No two snapshots of a session have the same process.

* `Session` : the user and the snapshots;
* `remember`, `forget`, `snapshot?` : the snapshots by process.
-/
import Stepwise.Process.Account
import Stepwise.Process.Snapshot

namespace Stepwise

/-- The user and the latest snapshots. -/
structure Session where
  user : Option User
  snapshots : List Snapshot
  distinct : (snapshots.map (·.id)).Nodup := by simp

namespace Session

/-- Nobody is logged in. -/
def closed : Session := { user := none, snapshots := [] }

instance : Inhabited Session := ⟨closed⟩

/-- The session of a user, without a trace of the one before. -/
def ofUser (u : User) : Session := { user := some u, snapshots := [] }

/-- The latest snapshot of a process. -/
def snapshot? (session : Session) (id : Uuid) : Option Snapshot :=
  session.snapshots.find? (·.id = id)

/-- Drops the snapshot of a process. -/
def forget (session : Session) (id : Uuid) : Session where
  user := session.user
  snapshots := session.snapshots.filter (·.id ≠ id)
  distinct := session.distinct.sublist (List.filter_sublist.map _)

/-- Keeps a snapshot in place of the one that its process had. -/
def remember (session : Session) (s : Snapshot) : Session where
  user := session.user
  snapshots := s :: (session.forget s.id).snapshots
  distinct := by
    rw [List.map_cons, List.nodup_cons]
    exact ⟨by simp [forget], (session.forget s.id).distinct⟩

@[simp] theorem snapshot?_remember (session : Session) (s : Snapshot) (id : Uuid) :
    (session.remember s).snapshot? id = if s.id = id then some s else session.snapshot? id := by
  simp only [remember, snapshot?, forget, List.find?_cons]
  by_cases h : s.id = id
  · simp [h]
  · simp only [h, decide_false, ↓reduceIte, List.find?_filter]
    congr 1
    funext t
    by_cases ht : t.id = id
    · simp [ht, Ne.symm h]
    · simp [ht]

@[simp] theorem snapshot?_forget (session : Session) (gone id : Uuid) :
    (session.forget gone).snapshot? id = if gone = id then none else session.snapshot? id := by
  simp only [snapshot?, forget, List.find?_filter]
  by_cases h : gone = id
  · simp only [h, ↓reduceIte, List.find?_eq_none]
    intro t _
    by_cases ht : t.id = id <;> simp [ht]
  · simp only [h, ↓reduceIte]
    congr 1
    funext t
    by_cases ht : t.id = id
    · simp [ht, Ne.symm h]
    · simp [ht]

end Session

end Stepwise

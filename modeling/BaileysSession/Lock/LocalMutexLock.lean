import BaileysSession.Shared.InsertionMap

set_option autoImplicit false

namespace BaileysSession

-- `Mutex` objects, numbered in the order in which the process makes them.
abbrev Mutex := Nat

structure LocalMutexLock where
  locks : InsertionMap String Mutex

structure Acquiring where
  mutex : Mutex
  lock : LocalMutexLock
  made : Nat

namespace LocalMutexLock

def new : LocalMutexLock := ⟨.empty⟩

/-- In a process that has made so many mutexes before. -/
def getMutex (lock : LocalMutexLock) (key : String) (made : Nat) : Acquiring :=
  match lock.locks.get? key with
  | some mutex => ⟨mutex, lock, made⟩
  | none => ⟨made, ⟨lock.locks.set key made⟩, made + 1⟩

variable (lock : LocalMutexLock) (key : String) (made : Nat)

theorem getMutex_kept : (lock.getMutex key made).lock.locks.get? key =
    some (lock.getMutex key made).mutex := by
  unfold getMutex
  split
  · assumption
  · simp

theorem getMutex_extends {other : String} {mutex : Mutex}
    (found : lock.locks.get? other = some mutex) :
    (lock.getMutex key made).lock.locks.get? other = some mutex := by
  unfold getMutex
  split
  · exact found
  · rename_i missing
    rw [InsertionMap.get?_set, if_neg]
    · exact found
    · rintro rfl
      rw [missing] at found
      cases found

end LocalMutexLock

end BaileysSession

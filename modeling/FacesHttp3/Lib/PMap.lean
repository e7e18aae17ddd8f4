import Mathlib.Logic.Function.Basic

/-! # Finite maps as partial functions

The observable content of a hash map: the value under each key, if any. One
operation here is one critical section of a concurrent map (an entry lookup
with its update), so a step relation that performs one of them per step has the
interleavings of the map. Iteration order and capacity are not observable and
are absent. -/

namespace FacesHttp3.Lib

abbrev PMap (κ ν : Type*) := κ → Option ν

namespace PMap
variable {κ ν : Type*}

def empty : PMap κ ν := fun _ => none

variable [DecidableEq κ]

def insert (m : PMap κ ν) (k : κ) (v : ν) : PMap κ ν := Function.update m k (some v)

def erase (m : PMap κ ν) (k : κ) : PMap κ ν := Function.update m k none

/-- `entry(k).and_modify(f)`: an absent key stays absent. -/
def modify (m : PMap κ ν) (k : κ) (f : ν → ν) : PMap κ ν := Function.update m k ((m k).map f)

/-- `entry(k).or_insert(v)`: a present value stays. -/
def orInsert (m : PMap κ ν) (k : κ) (v : ν) : PMap κ ν := Function.update m k (some ((m k).getD v))

/-- One insertion after the other. -/
def insertAll (m : PMap κ ν) (entries : List (κ × ν)) : PMap κ ν :=
  entries.foldl (fun m entry => m.insert entry.1 entry.2) m

omit [DecidableEq κ] in
/-- Keep the entries whose key passes the test. -/
def retain (m : PMap κ ν) (p : κ → Bool) : PMap κ ν := fun k => if p k then m k else none

omit [DecidableEq κ] in
@[simp] theorem empty_apply (k : κ) : (empty : PMap κ ν) k = none := rfl

@[simp] theorem insert_self (m : PMap κ ν) (k : κ) (v : ν) : m.insert k v k = some v := by
  simp [insert]
theorem insert_of_ne (m : PMap κ ν) {k j : κ} (v : ν) (h : j ≠ k) : m.insert k v j = m j := by
  simp [insert, h]
theorem insert_apply (m : PMap κ ν) (k j : κ) (v : ν) :
    m.insert k v j = if j = k then some v else m j := by
  simp [insert, Function.update_apply]

/-- The last entry of a key is the one that stays. -/
theorem insertAll_apply (m : PMap κ ν) (entries : List (κ × ν)) (k : κ) :
    m.insertAll entries k =
      ((entries.reverse.find? fun entry => decide (entry.1 = k)).map (·.2)).or (m k) := by
  induction entries generalizing m with
  | nil => rfl
  | cons entry entries ih =>
    show (m.insert entry.1 entry.2).insertAll entries k = _
    rw [ih, insert_apply, List.reverse_cons, List.find?_append]
    cases entries.reverse.find? fun entry => decide (entry.1 = k) with
    | some last => rfl
    | none =>
      by_cases h : k = entry.1
      · simp [h]
      · simp [h, Ne.symm h]

@[simp] theorem erase_self (m : PMap κ ν) (k : κ) : m.erase k k = none := by simp [erase]
theorem erase_of_ne (m : PMap κ ν) {k j : κ} (h : j ≠ k) : m.erase k j = m j := by simp [erase, h]
theorem erase_apply (m : PMap κ ν) (k j : κ) : m.erase k j = if j = k then none else m j := by
  simp [erase, Function.update_apply]

@[simp] theorem modify_self (m : PMap κ ν) (k : κ) (f : ν → ν) : m.modify k f k = (m k).map f := by
  simp [modify]

@[simp] theorem orInsert_self (m : PMap κ ν) (k : κ) (v : ν) :
    m.orInsert k v k = some ((m k).getD v) := by simp [orInsert]

omit [DecidableEq κ] in
@[simp] theorem retain_apply (m : PMap κ ν) (p : κ → Bool) (k : κ) :
    m.retain p k = if p k then m k else none := rfl

end PMap
end FacesHttp3.Lib

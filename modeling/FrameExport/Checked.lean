/-!
# Checked values

A value that is read from unchecked data comes with the number of faults found on the way.  A faulty
part is replaced by a default, so that reading goes on and counts the faults of everything else; the
value counts only when there is no fault at all.  Combining checked values adds their faults, so one
fault neither hides nor repeats another.
-/

namespace FrameExport

/-- A value with the number of faults in what it was read from. -/
structure Checked (α : Type) where
  value : α
  faults : Nat
deriving Repr

namespace Checked

variable {α β : Type}

/-- A value without fault. -/
def sound (value : α) : Checked α := ⟨value, 0⟩

/-- One fault, with a default in place of a value. -/
def faulty (default : α) : Checked α := ⟨default, 1⟩

/-- The value that was found, or else one fault. -/
def ofOption (default : α) : Option α → Checked α
  | some a => sound a
  | none => faulty default

instance : Functor Checked where
  map f x := ⟨f x.value, x.faults⟩

instance : Seq Checked where
  seq f x := ⟨f.value (x ()).value, f.faults + (x ()).faults⟩

/-- The values in a row; their faults add up. -/
def all : List (Checked α) → Checked (List α)
  | [] => sound []
  | x :: xs => List.cons <$> x <*> all xs

/-- The value, if there is no fault, and the number of faults otherwise. -/
def toExcept (x : Checked α) : Except Nat α :=
  if x.faults = 0 then .ok x.value else .error x.faults

@[simp] theorem faults_map (f : α → β) (x : Checked α) : (f <$> x).faults = x.faults := rfl

@[simp] theorem value_map (f : α → β) (x : Checked α) : (f <$> x).value = f x.value := rfl

@[simp] theorem faults_seq (f : Checked (α → β)) (x : Checked α) :
    (f <*> x).faults = f.faults + x.faults := rfl

@[simp] theorem value_seq (f : Checked (α → β)) (x : Checked α) :
    (f <*> x).value = f.value x.value := rfl

@[simp] theorem value_all : ∀ xs : List (Checked α), (all xs).value = xs.map Checked.value
  | [] => rfl
  | x :: xs => by simp [all, value_all xs]

/-- A value counts exactly when nothing is wrong with it. -/
theorem toExcept_eq_ok_iff {x : Checked α} {a : α} :
    x.toExcept = .ok a ↔ x.faults = 0 ∧ x.value = a := by
  unfold toExcept
  split <;> simp_all

end Checked

end FrameExport

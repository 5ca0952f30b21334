import Stoppage.Lib.Fallible
import Stoppage.Lib.LittleEndian
import Mathlib.Data.List.GetD

/-! # Buffers with checked accesses

A computation that reads a buffer ends with a value, with an error of its own, or with an access
past the end of the buffer. `lift` embeds the computations that read nothing; a computation equal
to a lifted one makes no access out of bounds.
-/

namespace Access
open Fallible LittleEndian
set_option autoImplicit false

universe u v

inductive Fault (ε : Type u) where
  | outOfBounds
  | error (e : ε)

section Lift
variable {ε : Type u} {α β : Type v}

def lift (x : Except ε α) : Except (Fault ε) α := x.mapError .error

theorem lift_ne_outOfBounds (x : Except ε α) : lift x ≠ .error .outOfBounds := by
  cases x with
  | error e =>
    intro h
    cases h
  | ok a =>
    intro h
    cases h

theorem lift_bind (x : Except ε α) (f : α → Except ε β) :
    lift (x >>= f) = lift x >>= fun a => lift (f a) := by
  cases x <;> rfl

theorem lift_require (c : Prop) [Decidable c] (e : ε) :
    lift (require c e) = require c (.error e) := by
  unfold require
  split <;> rfl

theorem lift_getOr (o : Option α) (e : ε) : lift (getOr e o) = getOr (.error e) o := by
  cases o <;> rfl

/-- Two computations behind one guard need to agree only where the guard lets through. -/
theorem require_bind_congr {γ : Type} {c : Prop} [Decidable c] {e : ε} {f g : Unit → Except ε γ}
    (h : c → f () = g ()) : (require c e >>= f) = (require c e >>= g) := by
  by_cases hc : c
  · rw [require_of hc]
    exact h hc
  · rw [require, if_neg hc]
    rfl

end Lift

section Reads
variable {ε : Type u}

/-- `bs[i]` -/
def index (bs : List UInt8) (i : ℕ) : Except (Fault ε) UInt8 := getOr .outOfBounds bs[i]?

/-- `bs[i..j]` -/
def range (bs : List UInt8) (i j : ℕ) : Except (Fault ε) (List UInt8) :=
  if i ≤ j ∧ j ≤ bs.length then .ok (slice bs i (j - i)) else .error .outOfBounds

theorem index_of {bs : List UInt8} {i : ℕ} (h : i < bs.length) :
    (index bs i : Except (Fault ε) UInt8) = .ok (bs.getD i 0) := by
  rw [index, List.getElem?_eq_getElem h, getOr_some, List.getD_eq_getElem _ _ h]

theorem range_of {bs : List UInt8} {i n : ℕ} (h : i + n ≤ bs.length) :
    (range bs i (i + n) : Except (Fault ε) (List UInt8)) = .ok (slice bs i n) := by
  rw [range, if_pos ⟨Nat.le_add_right i n, h⟩, Nat.add_sub_cancel_left]

end Reads

end Access

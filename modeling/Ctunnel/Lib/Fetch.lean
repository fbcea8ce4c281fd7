import Ctunnel.Lib.BigEndian

/-!
# Reads of an input of known length

A decoder gets a pointer and a length. A computation in `Fetch` accepts, refuses,
or reads a byte behind the length. One that equals `Fetch.ofOption` of a decoder
reads inside its input only, and decides as the decoder does.
-/

namespace Ctunnel.Lib

/-- What a decoder does with an input of known length. -/
inductive Fetch (α : Type)
  | accepted (a : α)
  | refused
  /-- A byte behind the input was read. -/
  | outside
  deriving DecidableEq

namespace Fetch

variable {α β : Type}

def bind (x : Fetch α) (f : α → Fetch β) : Fetch β :=
  match x with
  | .accepted a => f a
  | .refused => .refused
  | .outside => .outside

instance : Monad Fetch where
  pure := .accepted
  bind := bind

/-- The value `v` made of the `k` bytes at `off`, of an input of `n` bytes. -/
def read (n off k : Nat) (v : α) : Fetch α := if off + k ≤ n then .accepted v else .outside

/-- A test of the decoder. -/
def check (c : Prop) [Decidable c] : Fetch Unit := if c then .accepted () else .refused

/-- The outcome without a read behind the input. -/
def ofOption : Option α → Fetch α
  | some a => .accepted a
  | none => .refused

theorem bind_accepted (a : α) (f : α → Fetch β) : (Fetch.accepted a >>= f) = f a := rfl

theorem read_inside {n off k : Nat} (h : off + k ≤ n) (v : α) : read n off k v = .accepted v :=
  if_pos h

theorem check_pos {c : Prop} [Decidable c] (h : c) : check c = .accepted () := if_pos h

theorem check_neg {c : Prop} [Decidable c] (h : ¬ c) : check c = .refused := if_neg h

theorem ofOption_stays (x : Option α) : ofOption x ≠ .outside := by
  cases x with
  | none => exact fun h => nomatch h
  | some a => exact fun h => nomatch h

end Fetch

end Ctunnel.Lib

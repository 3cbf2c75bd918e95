import Descent.Parser.Basic

/-! Repetition. A repeated parser runs until it fails without consuming input, and its last run is
not part of the result. The bound limits how often it runs; a run that would exceed it halts. -/
namespace Descent.Parser

variable {m : Type → Type} {C τ α : Type} [MonadRun m] [Cursor C τ]

/-- Values of `p` for as long as it succeeds. When `strict`, a success that consumed nothing is
refused. -/
def repeated (strict : Bool) (p : Parser m C τ α) : Nat → Parser m C τ (List α)
  | 0, _ => MonadRun.halt .boundSpent
  | bound + 1, c => do
    match ← p c with
    | .ok v next =>
      if strict && Cursor.same next c then
        return .fail ⟨.message (Cursor.position c)
          "repeated parser succeeded without consuming input", c⟩
      else
        return (← repeated strict p bound next).map (v :: ·)
    | .fail f => if f.consumedSince c then return .fail f else return .ok [] c

def many (bound : Nat) (p : Parser m C τ α) : Parser m C τ (List α) := repeated false p bound

/-- One or more values of `p`. When `strict`, only the first may consume nothing. -/
def repeated1 (strict : Bool) (p : Parser m C τ α) (bound : Nat) : Parser m C τ (List α) :=
  bind p fun v => map (repeated strict p bound) (v :: ·)

def many1 (bound : Nat) (p : Parser m C τ α) : Parser m C τ (List α) := repeated1 false p bound

def skipMany (bound : Nat) (p : Parser m C τ α) : Parser m C τ Unit :=
  map (many bound p) fun _ => ()

end Descent.Parser

import Descent.Text.Quoted

/-! What parsers have to know of the tokens they read. -/
namespace Descent

/-- Tokens have a written form for messages, and some of them are characters. -/
class Token (τ : Type) where
  quoted : τ → String
  char? : τ → Option Char

instance : Token Char := ⟨Text.quoteChar, some⟩

instance : Token Int := ⟨fun i => toString i, fun _ => none⟩

instance : Token String := ⟨Text.quoteString, fun _ => none⟩

@[simp] theorem char?_char (c : Char) : Token.char? c = some c := rfl

end Descent

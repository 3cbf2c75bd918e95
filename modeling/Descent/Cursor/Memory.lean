import Descent.Cursor.Basic
import Descent.Text.Quoted

/-! Cursors over tokens in memory. -/
namespace Descent

/-- A cursor over a list of tokens. Its rule gives line and column after each token; offsets count
tokens whatever the rule says. -/
structure TokenCursor (τ : Type) where
  source : List τ
  rest : List τ
  position : Position
  rule : Position → τ → Position

namespace TokenCursor

variable {τ : Type}

def ofList (tokens : List τ) (rule : Position → τ → Position) : TokenCursor τ :=
  ⟨tokens, tokens, .start, rule⟩

def row (p : Position) (_ : τ) : Position := p.nextColumn

def ofText (text : String) (tab : Nat) : TokenCursor Char :=
  ofList text.toList (Position.nextChar tab)

instance : Cursor (TokenCursor τ) τ where
  current c := c.rest.head?
  position c := c.position

def past (c : TokenCursor τ) (t : τ) (rest : List τ) : TokenCursor τ :=
  { c with rest, position := { c.rule c.position t with offset := c.position.offset + 1 } }

instance {m : Type → Type} [MonadRun m] : Advance m (TokenCursor τ) where
  advance c := match c.rest with
    | [] => MonadRun.halt (.pastEnd c.position)
    | t :: rest => pure (c.past t rest)

def inspectText (c : TokenCursor Char) : String :=
  "StrCursor \x7b position: " ++ c.position.inspect ++ ", rest: " ++ Text.quoteChars c.rest ++
    " \x7d"

end TokenCursor

end Descent

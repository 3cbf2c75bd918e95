import Descent.Grammar.Basic
import Descent.Parser.Lemmas

/-! The parsers of grammars that are put together from others: each is the parser combination of
the same name, with its value made one of `Value`. -/
namespace Descent.Grammar

variable {m : Type → Type} {C τ : Type} [MonadRun m] [Cursor C τ] [Advance m C] [Token τ]
  [DecidableEq τ] (bound : Nat) (rules : String → Parser m C τ Value)

@[simp] theorem parser_map (g : Grammar τ) (f : Value → Value) :
    parser bound rules (map g f) = Parser.map (parser bound rules g) f := rfl

@[simp] theorem parser_keepRight (g h : Grammar τ) :
    parser bound rules (keepRight g h) =
      Parser.keepRight (parser bound rules g) (parser bound rules h) := rfl

@[simp] theorem parser_keepLeft (g h : Grammar τ) :
    parser bound rules (keepLeft g h) =
      Parser.keepLeft (parser bound rules g) (parser bound rules h) := rfl

@[simp] theorem parser_between (opening g closing : Grammar τ) :
    parser bound rules (between opening g closing) =
      Parser.between (parser bound rules opening) (parser bound rules g)
        (parser bound rules closing) := rfl

@[simp] theorem parser_expecting (g : Grammar τ) (label : String) :
    parser bound rules (expecting g label) =
      Parser.expecting (parser bound rules g) label := rfl

variable [LawfulMonad m]

theorem parser_both (g h : Grammar τ) :
    parser bound rules (both g h) =
      Parser.map (Parser.both (parser bound rules g) (parser bound rules h))
        fun (v, w) => .pair v w := by
  simp only [Parser.both, Parser.map_bind, Parser.map_map]
  rfl

theorem parser_count (g : Grammar τ) (n : Nat) :
    parser bound rules (count g n) =
      Parser.map (Parser.count (parser bound rules g) n) .list := by
  induction n with
  | zero => simp [count, parser, Parser.count, Parser.map]
  | succ n ih =>
    simp only [Parser.count, Parser.map_bind, Parser.map_map]
    refine congrArg (Parser.bind (parser bound rules g)) (funext fun v => ?_)
    rw [parser_map, ih, Parser.map_map]
    rfl

theorem parser_repeated1 (strict : Bool) (g : Grammar τ) :
    parser bound rules (repeated1 strict g) =
      Parser.map (Parser.repeated1 strict (parser bound rules g) bound) .list := by
  simp only [Parser.repeated1, Parser.map_bind, Parser.map_map]
  refine congrArg (Parser.bind (parser bound rules g)) (funext fun v => ?_)
  exact Parser.map_map _ _ _

theorem parser_skip (strict : Bool) (g : Grammar τ) :
    parser bound rules (skip strict g) =
      Parser.map (Parser.repeated strict (parser bound rules g) bound) fun _ => .unit :=
  Parser.map_map _ _ _

theorem parser_unindented (blanks g : Grammar τ) :
    parser bound rules (unindented blanks g) =
      Parser.unindented (parser bound rules blanks) (parser bound rules g) :=
  Parser.keepRight_map _ _ _

/-- The body of a fold is given a grammar that skips blanks and asks for a token further right than
the first, and that consumes nothing where there is none. -/
theorem parser_lineFold (blanks : Grammar τ) (body : Grammar τ → Grammar τ) :
    parser bound rules (lineFold blanks body) =
      Parser.keepRight (parser bound rules blanks) (Parser.bind Parser.level fun reference =>
        parser bound rules (body (attempt (guardLevel blanks .gt reference)))) :=
  congrArg (Parser.keepRight _) (Parser.bind_map _ _ _)

theorem parser_charOf (k : CharClass) :
    parser bound rules (charOf k) = Parser.map (Parser.charOf k) .char :=
  Parser.accept_map _ _ _

theorem parser_satisfy (value : τ → Value) (test : τ → Bool) (label : String) :
    parser bound rules (satisfy value test label) =
      Parser.map (Parser.satisfy test label) value :=
  Parser.accept_map _ _ _

theorem parser_token (value : τ → Value) (t : τ) :
    parser bound rules (token value t) = Parser.map (Parser.token t) value :=
  Parser.accept_map _ _ _

theorem parser_anyToken (value : τ → Value) :
    parser bound rules (anyToken value) = Parser.map Parser.anyToken value :=
  Parser.accept_map some value "any token"

end Descent.Grammar

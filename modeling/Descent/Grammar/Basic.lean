import Descent.Grammar.Value
import Descent.Layout.Block
import Descent.Layout.Items
import Descent.Parser.Lexeme
import Descent.Parser.Lookahead
import Descent.Parser.Separated
import Descent.Permutation.Basic

/-! Grammars: parsers as data. A grammar can be read at run time, can name rules, and runs on every
kind of cursor. -/
namespace Descent

/-- A parser of dynamic values. What comes after a value may depend on it; alternatives and slots
are given by their numbers; a rule is known by its name. A function that makes a parser makes the
deferred parsers in it anew each time it is called, and builds permutations with so many slots. -/
inductive Grammar (τ : Type) where
  | pure (v : Value)
  | fail (text : String)
  | raise (error : ParseError τ)
  | accept (pick : τ → Option Value) (label : String)
  | endOfInput
  | literal (text : String)
  | natural
  | integer
  | identifier
  | position
  | level
  | spanned (g : Grammar τ)
  | bind (g : Grammar τ) (k : Value → Grammar τ)
  | orElse (g h : Grammar τ)
  | choice (n : Nat) (alternatives : Fin n → Grammar τ)
  | optional (g : Grammar τ)
  | attempt (g : Grammar τ)
  | lookAhead (g : Grammar τ)
  | notFollowedBy (g : Grammar τ)
  | ensure (g : Grammar τ) (test : Value → Bool) (reason : Value → String)
  | repeated (strict : Bool) (g : Grammar τ)
  | sepBy (atLeastOne : Bool) (item separator : Grammar τ)
  | endBy (atLeastOne : Bool) (item separator : Grammar τ)
  | sepEndBy (atLeastOne : Bool) (item separator : Grammar τ)
  | mapError (g : Grammar τ) (f : ParseError τ → ParseError τ)
  | traced (g : Grammar τ) (name : String)
  | rule (name : String)
  | deferred (g : Grammar τ) (supplier : Supplier)
  | making (g : Grammar τ) (renewed : Supplier → Bool) (slots : List Nat)
  | guardLevel (blanks : Grammar τ) (relation : Relation) (reference : Level)
  | block (atLeastOne : Bool) (blanks head item : Grammar τ)
  | itemsAt (atLeastOne : Bool) (reference : Level) (relation : Relation) (blanks item : Grammar τ)
  | optionalAt (reference : Level) (relation : Relation) (g : Grammar τ)
  | permutation (seed : Value) (n : Nat) (slots : Fin n → Grammar τ)
      (default? : Fin n → Option Value) (combine : Fin n → Value → Value → Value)

namespace Grammar

variable {τ : Type}

def satisfy (value : τ → Value) (test : τ → Bool) (label : String) : Grammar τ :=
  accept (fun t => (Option.guard test t).map value) label

def token [Token τ] [DecidableEq τ] (value : τ → Value) (t : τ) : Grammar τ :=
  satisfy value (· == t) (Token.quoted t)

def anyToken (value : τ → Value) : Grammar τ := accept (fun t => some (value t)) "any token"

def charOf [Token τ] (k : CharClass) : Grammar τ :=
  accept (fun t => ((Token.char? t).filter k.test).map .char) k.label

def map (g : Grammar τ) (f : Value → Value) : Grammar τ := bind g fun v => pure (f v)

def both (g h : Grammar τ) : Grammar τ := bind g fun v => map h (.pair v)

def keepRight (g h : Grammar τ) : Grammar τ := bind g fun _ => h

def keepLeft (g h : Grammar τ) : Grammar τ := bind g fun v => map h fun _ => v

def between (opening g closing : Grammar τ) : Grammar τ := keepRight opening (keepLeft g closing)

def count (g : Grammar τ) : Nat → Grammar τ
  | 0 => pure (.list [])
  | n + 1 => bind g fun v => map (count g n) v.cons

/-- One or more values of `g`. When `strict`, only the first may consume nothing. -/
def repeated1 (strict : Bool) (g : Grammar τ) : Grammar τ :=
  bind g fun v => map (repeated strict g) v.cons

def skip (strict : Bool) (g : Grammar τ) : Grammar τ := map (repeated strict g) fun _ => .unit

def blanks : Grammar Char := skip false (charOf .blank)

def expecting (g : Grammar τ) (label : String) : Grammar τ := mapError g (·.relabel label)

def unindented (blanks g : Grammar τ) : Grammar τ := keepRight (guardLevel blanks .eq .first) g

/-- Skips blanks and runs the body, which is given a grammar that leads to the next token of the
fold. -/
def lineFold (blanks : Grammar τ) (body : Grammar τ → Grammar τ) : Grammar τ :=
  keepRight blanks (bind level fun v => body (attempt (guardLevel blanks .gt ⟨v.size⟩)))

def deferredRule (supplier : Supplier) : Grammar τ := deferred (rule supplier.name) supplier

/-- What supplies the parser of a recursive rule inside the one at `path`. Such parsers are
boxed. -/
def nested (path : String) : Supplier := ⟨path ++ "/tree", "BoxedParser", []⟩

def permutationsBuilt (slots : List Nat) : List Event :=
  slots.map fun n => .permutationBuilt n (Orders.all n).size

variable {m : Type → Type} {C : Type} [MonadRun m] [Cursor C τ] [Advance m C] [Token τ]
  [DecidableEq τ]

/-- The parser of a grammar whose rules have the parsers `rules`. No repetition in it may run
more than `bound` times. -/
def parser (bound : Nat) (rules : String → Parser m C τ Value) : Grammar τ → Parser m C τ Value
  | pure v => Parser.pure v
  | fail text => Parser.fail text
  | raise error => Parser.raise error
  | accept pick label => Parser.accept pick label
  | endOfInput => Parser.map Parser.endOfInput fun _ => .unit
  | literal text => Parser.map (Parser.literal text) .text
  | natural => Parser.map (Parser.natural bound) .natural
  | integer => Parser.map (Parser.integer bound) .integer
  | identifier => Parser.map (Parser.identifier bound) .text
  | position => Parser.map Parser.position .position
  | level => Parser.map Parser.level .level
  | spanned g => Parser.map (Parser.spanned (parser bound rules g)) fun (v, s) => .spanned v s
  | bind g k => Parser.bind (parser bound rules g) fun v => parser bound rules (k v)
  | orElse g h => Parser.orElse (parser bound rules g) (parser bound rules h)
  | choice _ alternatives =>
    Parser.choice (List.ofFn fun i => parser bound rules (alternatives i))
  | optional g => Parser.map (Parser.optional (parser bound rules g)) .ofOption
  | attempt g => Parser.attempt (parser bound rules g)
  | lookAhead g => Parser.lookAhead (parser bound rules g)
  | notFollowedBy g => Parser.map (Parser.notFollowedBy (parser bound rules g)) fun _ => .unit
  | ensure g test reason => Parser.ensure (parser bound rules g) test reason
  | repeated strict g => Parser.map (Parser.repeated strict (parser bound rules g) bound) .list
  | sepBy atLeastOne item separator =>
    Parser.map
      (Parser.sepBy atLeastOne (parser bound rules item) (parser bound rules separator) bound) .list
  | endBy atLeastOne item separator =>
    Parser.map
      (Parser.endBy atLeastOne (parser bound rules item) (parser bound rules separator) bound) .list
  | sepEndBy atLeastOne item separator =>
    Parser.map
      (Parser.sepEndBy atLeastOne (parser bound rules item) (parser bound rules separator) bound)
      .list
  | mapError g f => Parser.mapError (parser bound rules g) f
  | traced g name => Parser.traced (parser bound rules g) name
  | rule name => rules name
  | deferred g supplier =>
    Parser.deferred (parser bound rules g) supplier (permutationsBuilt supplier.permutations)
  | making g renewed slots =>
    Parser.making (parser bound rules g) renewed (permutationsBuilt slots)
  | guardLevel blanks relation reference =>
    Parser.map (Parser.guardLevel (parser bound rules blanks) relation reference) .level
  | block atLeastOne blanks head item =>
    Parser.map
      (Parser.block atLeastOne (parser bound rules blanks) (parser bound rules head)
        (parser bound rules item) bound)
      fun (v, vs) => .pair v (.list vs)
  | itemsAt atLeastOne reference relation blanks item =>
    Parser.map
      (Parser.itemsAt reference relation (parser bound rules blanks) (parser bound rules item)
        atLeastOne bound) .list
  | optionalAt reference relation g =>
    Parser.map (Parser.optionalAt reference relation (parser bound rules g)) .ofOption
  | permutation seed _ slots default? combine =>
    Permutation.parser (Permutation.ofSlots seed (List.ofFn fun i =>
      ⟨parser bound rules (slots i), default? i, combine i⟩))

/-- The parsers of rules that name each other. A rule inside a rule has one level less. -/
def ruleParser (rules : String → Grammar τ) (bound : Nat) : (depth : Nat) → String →
    Parser m C τ Value
  | 0, _ => fun _ => MonadRun.halt .boundSpent
  | depth + 1, name => fun c => parser bound (ruleParser rules bound depth) (rules name) c

def noRules (_ : String) : Grammar τ := fail "no such rule"

/-- A bound for runs over `size` tokens with so many rules. A run that gets on never spends it:
unless a token is passed, neither a repetition nor a rule comes around again. -/
def enough (size rules : Nat) : Nat := (size + 2) * (rules + 2)

def run (rules : String → Grammar τ) (bound : Nat) (g : Grammar τ) : Parser m C τ Value :=
  parser bound (ruleParser rules bound bound) g

end Grammar

end Descent

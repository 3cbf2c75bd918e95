import Descent.Proofs.Separated.Basic
import Descent.Stream.Cursor

/-! Items with separators between them. Behind the first item such a list is a repetition of a
separator and an item: the loop and the repetition both judge a failure from where the last item
ended, so they give up in the same places, also where a separator or an item is empty. -/
namespace Descent

namespace Parser

section Loops

variable {m : Type → Type} {C τ α β : Type} [MonadRun m] [LawfulMonad m] [Cursor C τ]
  (item : Parser m C τ α) (separator : Parser m C τ β) (n : Nat)

theorem sepRest_eq_many : sepRest item separator n = many n (keepRight separator item) := by
  induction n with
  | zero => rfl
  | succ n ih =>
    funext c
    rw [many, repeated_eq_emptyUnless, emptyUnless, keepRight, bind, bind_assoc]
    apply congrArg (separator c >>= ·)
    funext r
    cases r with
    | ok w next =>
      apply congrArg (item next >>= ·)
      funext s
      cases s with
      | ok v last =>
        dsimp only
        rw [map_apply, ih]
        rfl
      | fail f => rfl
    | fail f => simp only [LawfulMonad.pure_bind]

theorem sepBy_true_eq : sepBy true item separator n =
    bind item fun v => map (many n (keepRight separator item)) (v :: ·) := by
  funext c
  apply congrArg (item c >>= ·)
  funext r
  cases r with
  | ok v next =>
    dsimp only
    rw [map_apply, sepRest_eq_many]
  | fail f => rfl

theorem sepBy_false_eq : sepBy false item separator n =
    emptyUnless item fun v => map (many n (keepRight separator item)) (v :: ·) := by
  funext c
  apply congrArg (item c >>= ·)
  funext r
  cases r with
  | ok v next =>
    dsimp only
    rw [map_apply, sepRest_eq_many]
  | fail f => rfl

end Loops

variable {σ C τ α β : Type} [Cursor C τ] {item : Parser (Run σ) C τ α}
  {separator : Parser (Run σ) C τ β} {c d e : C} {v : α} {vs : List α} {f : Failure C τ} {n : Nat}
  {i j k m : Journal σ}

section Failures

/-- From `c` a separator is read that has consumed something, and no item behind it. -/
def Dangles (item : Parser (Run σ) C τ α) (separator : Parser (Run σ) C τ β) (c : C)
    (j : Journal σ) (f : Failure C τ) (m : Journal σ) : Prop :=
  ∃ w d k, separator c j = .ok (.ok w d, k) ∧ Cursor.same d c = false ∧
    item d k = .ok (.fail f, m)

/-- The item that is missed behind a separator is missed further on than the separator began. -/
theorem Dangles.consumedSince (hitem : Forward item) (hseparator : Forward separator)
    (h : Dangles item separator c j f m) : f.consumedSince c = true := by
  obtain ⟨w, d, k, hw, hmoved, hf⟩ := h
  have hne : Cursor.offset d ≠ Cursor.offset c := by simpa [Cursor.same] using hmoved
  have hle : Cursor.offset c ≤ Cursor.offset d := hseparator hw
  have hback : Cursor.offset d ≤ Cursor.offset f.cursor := hitem hf
  apply consumedSince_of_lt
  omega

/-- A list that is read up to a failure which has consumed something fails with it. -/
theorem sepBy_eq_fail (hv : item c j = .ok (.ok v d, k))
    (hvs : Successes false (keepRight separator item) d k vs e i)
    (hf : keepRight separator item e i = .ok (.fail f, m)) (hcommit : f.consumedSince e = true)
    (hn : vs.length < n) (atLeastOne : Bool) :
    sepBy atLeastOne item separator n c j = .ok (.fail f, m) := by
  have hrest : many n (keepRight separator item) d k = .ok (.fail f, m) :=
    many_eq_fail_iff.2 ⟨vs, e, i, hn, hvs, hf, hcommit⟩
  have hmap : map (many n (keepRight separator item)) (v :: ·) d k = .ok (.fail f, m) :=
    map_eq_fail.2 hrest
  cases atLeastOne with
  | true => rw [sepBy_true_eq, bind_of_ok hv, hmap]
  | false => rw [sepBy_false_eq, emptyUnless_of_ok hv, hmap]

end Failures

variable [DecidableEq τ]

theorem sepBy_false_eq_iff : sepBy false item separator n c j =
      orElse (sepBy true item separator n) (pure []) c j ↔
    ¬ReturnsTo item (fun _ => many n (keepRight separator item)) c j := by
  rw [sepBy_false_eq, sepBy_true_eq, emptyUnless_eq_iff, not_iff_not]
  exact returnsTo_map

/-- A list with separators in other words. With one item or more it is an item and then a
repetition of a separator and an item, whatever these do. With none or more it is such a list or
nothing, unless the first item succeeds and what is read behind it fails back at the start of the
list; parsers that never go back, as no grammar does, leave no room for that. So a separator that
consumed something and has no item behind it is a failure that consumed something, and where the
first item fails and has consumed nothing the list is empty. `n` bounds how often a separator is
asked for. -/
theorem sepBy_composes (item : Parser (Run σ) C τ α) (separator : Parser (Run σ) C τ β) (n : Nat) :
    (sepBy true item separator n =
      bind item fun v => map (many n (keepRight separator item)) (v :: ·)) ∧
    (∀ c j, sepBy false item separator n c j =
        orElse (sepBy true item separator n) (pure []) c j ↔
      ¬ReturnsTo item (fun _ => many n (keepRight separator item)) c j) ∧
    (∀ c j f k, item c j = .ok (.fail f, k) → f.consumedSince c = false →
      sepBy false item separator n c j = .ok (.ok [] c, k)) ∧
    (Forward item → Forward separator →
      sepBy false item separator n = orElse (sepBy true item separator n) (pure []) ∧
      ∀ atLeastOne c j v d k vs e i f m, vs.length < n → item c j = .ok (.ok v d, k) →
        Successes false (keepRight separator item) d k vs e i →
        Dangles item separator e i f m →
        sepBy atLeastOne item separator n c j = .ok (.fail f, m) ∧ f.consumedSince c = true) := by
  refine ⟨sepBy_true_eq item separator n, fun c j => sepBy_false_eq_iff,
    fun c j f k hf hnothing => ?_, fun hitem hseparator => ?_⟩
  · rw [sepBy_false_eq, emptyUnless_of_fail hf, hnothing]
    rfl
  · have hpair : Forward (keepRight separator item) := hseparator.bind fun _ => hitem
    constructor
    · rw [sepBy_false_eq, sepBy_true_eq]
      apply hitem.emptyUnless_eq
      intro v
      exact (hpair.many n).map _
    · intro atLeastOne c j v d k vs e i f m hn hv hvs hdangles
      have hcommit : f.consumedSince e = true := hdangles.consumedSince hitem hseparator
      obtain ⟨w, a, l, hw, -, hf⟩ := hdangles
      have hfails : keepRight separator item e i = .ok (.fail f, m) := (bind_of_ok hw).trans hf
      refine ⟨sepBy_eq_fail hv hvs hfails hcommit hn atLeastOne, consumedSince_of_lt ?_⟩
      have hfirst : Cursor.offset c ≤ Cursor.offset d := hitem hv
      have hrest : Cursor.offset d ≤ Cursor.offset e := hpair.successes hvs
      have hlast : Cursor.offset e < Cursor.offset f.cursor := hpair.lt_of_consumed hfails hcommit
      omega

end Parser

namespace Grammar

def comma : Parser (Run Unit) (TokenCursor Char) Char Value := run noRules 4 (charOf (.only ','))

end Grammar

namespace Parser

open Grammar (comma letterA)

/-- In `a,a,b` the second comma is consumed, and the letter is missed behind it. -/
theorem sepBy_composes_danglingComma : Forward letterA ∧ Forward comma ∧
    sepBy false letterA comma 8 = orElse (sepBy true letterA comma 8) (pure []) ∧
    ∃ f m, sepBy false letterA comma 8 (TokenCursor.ofText "a,a,b" 4) ⟨(), [], []⟩ =
        .ok (.fail f, m) ∧
      f.consumedSince (TokenCursor.ofText "a,a,b" 4) = true := by
  have hitem : Forward letterA := Grammar.forward_run _ _ _
  have hseparator : Forward comma := Grammar.forward_run _ _ _
  obtain ⟨-, -, -, hforward⟩ := sepBy_composes letterA comma 8
  obtain ⟨hempty, hdangling⟩ := hforward hitem hseparator
  have hfirst : letterA (TokenCursor.ofText "a,a,b" 4) ⟨(), [], []⟩ =
      .ok (.ok (.char 'a') ((TokenCursor.ofText "a,a,b" 4).forward 1), ⟨(), [], []⟩) := rfl
  have hmore : Successes false (keepRight comma letterA)
      ((TokenCursor.ofText "a,a,b" 4).forward 1) ⟨(), [], []⟩ [.char 'a']
      ((TokenCursor.ofText "a,a,b" 4).forward 3) ⟨(), [], []⟩ :=
    .cons ⟨rfl, nofun⟩ .nil
  have hlast : ∃ f m, Dangles letterA comma ((TokenCursor.ofText "a,a,b" 4).forward 3) ⟨(), [], []⟩
      f m :=
    ⟨_, _, _, _, _, rfl, rfl, rfl⟩
  obtain ⟨f, m, hlast⟩ := hlast
  exact ⟨hitem, hseparator, hempty, f, m,
    hdangling false _ _ _ _ _ _ _ _ f m (by decide) hfirst hmore hlast⟩

/-- A function that reads a letter at the start of `a,` and fails anywhere else, at offset `back` of
that text. -/
def firstOnly (back : Nat) : Parser (Run Unit) (TokenCursor Char) Char Value := fun c =>
  if Cursor.offset c = 0 then letterA c
  else return .fail ⟨.message .start "no letter", (TokenCursor.ofText "a," 4).forward back⟩

end Parser

/-! A stream of `a,aa` whose second read fails, with its cursors and what is kept of its bytes: when
it is opened, when the bytes behind the first letter cannot be read, and when they are read after
all. -/

def cutList : Script := ⟨[0x61, 0x2C, 0x61, 0x61], none, none, [2], [], [], "cut"⟩

def cutListCursor (ahead : Option (Char × Nat)) (offset : Nat) : WindowCursor :=
  ⟨ahead, ⟨1, offset + 1, offset⟩, .utf8, Position.nextChar 4⟩

def cutListOpened : Journal Window :=
  ⟨⟨⟨cutList, 4, 1, 1⟩, 4, 0, [0x61, 0x2C, 0x61, 0x61], false, 1, none⟩, [.refilled 0 4 1], []⟩

def cutListFailed : Journal Window :=
  ⟨⟨⟨cutList, 1, 2, 2⟩, 4, 0, [], false, 1, some "cut"⟩,
    [.refilled 0 4 1, .readFailed 1 none "cut"], []⟩

def cutListRead : Journal Window :=
  ⟨⟨⟨cutList, 4, 4, 3⟩, 4, 1, [0x2C, 0x61, 0x61], true, 2, some "cut"⟩,
    [.refilled 0 4 1, .readFailed 1 none "cut", .refilled 1 3 2], []⟩

namespace Parser

open Grammar (comma)

def streamLetter : Parser (Run Window) WindowCursor Char Char :=
  accept (Option.guard (· = 'a')) "letter"

def streamComma : Parser (Run Window) WindowCursor Char Char :=
  accept (Option.guard (· = ',')) "comma"

/-- A list may differ from a list of one or more with nothing as an alternative: where an item fails
back at the start, behind a separator that has consumed something, and where a read fails that is
made again for the other. -/
theorem sepBy_ne_orElse :
    (sepBy false (firstOnly 0) comma 8 (TokenCursor.ofText "a," 4) ⟨(), [], []⟩ ≠
        orElse (sepBy true (firstOnly 0) comma 8) (pure []) (TokenCursor.ofText "a," 4)
          ⟨(), [], []⟩ ∧
      ∃ f m, sepBy false (firstOnly 0) comma 8 (TokenCursor.ofText "a," 4) ⟨(), [], []⟩ =
          .ok (.fail f, m) ∧
        f.consumedSince (TokenCursor.ofText "a," 4) = false) ∧
    ∃ c j k, WindowCursor.ofReader (.ofScript cutList) 4 .utf8 (Position.nextChar 4) = .ok (c, j) ∧
      (∃ d, sepBy false streamLetter streamComma 3 c j = .ok (.ok ['a'] d, k)) ∧
      ∃ e l, orElse (sepBy true streamLetter streamComma 3) (pure []) c k =
        .ok (.ok ['a', 'a'] e, l) := by
  have hback : ∃ f m, sepBy false (firstOnly 0) comma 8 (TokenCursor.ofText "a," 4) ⟨(), [], []⟩ =
      .ok (.fail f, m) ∧ f.consumedSince (TokenCursor.ofText "a," 4) = false :=
    ⟨_, _, rfl, rfl⟩
  refine ⟨⟨ne_of_fail_of_ok ⟨_, _, rfl⟩ ⟨_, _, _, rfl⟩, hback⟩,
    cutListCursor (some ('a', 1)) 0, cutListOpened, cutListFailed, by with_unfolding_all rfl,
    ⟨cutListCursor none 1, ?_⟩, cutListCursor (some ('a', 1)) 3, cutListRead, ?_⟩
  · with_unfolding_all rfl
  · with_unfolding_all rfl

end Parser

end Descent

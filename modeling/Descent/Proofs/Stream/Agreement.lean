import Descent.Proofs.Steady
import Descent.Proofs.Stream.Faithful

/-! Streams read like the text that they hold. A run over the window of a stream and a run over its
text in memory go through the same lines and columns and give the same reply, with byte offsets for
offsets in the text, however large the window is and however the bytes come in. -/
namespace Descent

namespace ParseError

variable {τ : Type} {e f : ParseError τ} {place : Position → Position}

theorem position_mapPosition (place : Position → Position) (e : ParseError τ) :
    (e.mapPosition place).position = place e.position := by
  cases e <;> rfl

theorem mapPosition_relabel (label : String) :
    (e.relabel label).mapPosition place = (e.mapPosition place).relabel label := by
  cases e <;> rfl

variable [DecidableEq τ]

/-- Where places keep their order, it does not matter whether errors are moved or joined first. -/
theorem mapPosition_merge
    (hlt : (e.mapPosition place).offset < (f.mapPosition place).offset ↔ e.offset < f.offset)
    (hgt : (f.mapPosition place).offset < (e.mapPosition place).offset ↔ f.offset < e.offset) :
    (e.merge f).mapPosition place = (e.mapPosition place).merge (f.mapPosition place) := by
  unfold merge
  by_cases h : f.offset < e.offset
  · rw [if_pos h, if_pos (hgt.2 h)]
  · rw [if_neg h, if_neg fun h' => h (hgt.1 h')]
    by_cases h' : e.offset < f.offset
    · rw [if_pos h', if_pos (hlt.2 h')]
    · rw [if_neg h', if_neg fun h => h' (hlt.1 h)]
      cases e with
      | mismatch => cases f <;> rfl
      | explained => cases f <;> rfl

/-- Errors are joined at the place of one of them. -/
theorem position_merge (e f : ParseError τ) :
    (e.merge f).position = e.position ∨ (e.merge f).position = f.position := by
  unfold merge
  split
  · exact .inl rfl
  · split
    · exact .inr rfl
    · cases e with
      | mismatch =>
        cases f with
        | mismatch => exact .inl rfl
        | explained => exact .inr rfl
      | explained =>
        cases f with
        | mismatch => exact .inl rfl
        | explained => exact .inl rfl

end ParseError

section Agreement

variable (s : Script) (encoding : Encoding) (tab : Nat)

def streamPlace (p : Position) : Position := p.mapOffset (encoding.byteOffset s.data)

def textStart : TokenCursor Char := .ofText (encoding.text s.data) tab

/-- The cursor of the stream that shows what `c` shows of the text. -/
def streamCursor (c : TokenCursor Char) : WindowCursor :=
  ⟨encoding.decode (s.data.drop (encoding.byteOffset s.data c.position.offset)),
    streamPlace s encoding c.position, encoding, Position.nextChar tab⟩

variable {s encoding tab} {c d : TokenCursor Char}

theorem rest_textStart :
    (textStart s encoding tab).rest = (encoding.chars s.data).map (·.1) := by
  simp [textStart, TokenCursor.ofText, TokenCursor.ofList, Encoding.text]

theorem length_textStart :
    (textStart s encoding tab).rest.length = (encoding.chars s.data).length := by
  rw [rest_textStart, List.length_map]

/-- Offsets in the text count characters. -/
theorem exists_of_reaches (h : (textStart s encoding tab).Reaches c) :
    ∃ k, k ≤ (encoding.chars s.data).length ∧ c = (textStart s encoding tab).forward k ∧
      c.position.offset = k := by
  obtain ⟨k, hk, rfl⟩ := h
  refine ⟨k, length_textStart ▸ hk, rfl, ?_⟩
  rw [TokenCursor.offset_forward hk]
  exact Nat.zero_add k

theorem current_streamCursor (h : (textStart s encoding tab).Reaches c) :
    Cursor.current (streamCursor s encoding tab c) = Cursor.current c := by
  obtain ⟨k, hk, rfl, hoffset⟩ := exists_of_reaches h
  change Option.map _ (encoding.decode _) = _
  rw [hoffset, encoding.decode_byteOffset, TokenCursor.current_forward, rest_textStart,
    List.getElem?_map]

/-- Places in the stream have the order of the places in the text. -/
theorem streamPlace_lt_iff (hc : (textStart s encoding tab).Reaches c)
    (hd : (textStart s encoding tab).Reaches d) :
    (streamPlace s encoding c.position).offset < (streamPlace s encoding d.position).offset ↔
      c.position.offset < d.position.offset := by
  obtain ⟨i, hi, _, hioffset⟩ := exists_of_reaches hc
  obtain ⟨k, hk, _, hkoffset⟩ := exists_of_reaches hd
  simp only [streamPlace, Position.mapOffset, hioffset, hkoffset]
  exact Encoding.byteOffset_lt_iff hi hk

variable (encoding) in
theorem look_eq {w : Window} (h : w.Faithful s) (hs : s.NeverFails) (offset : Nat) :
    (w.look encoding offset).1 = encoding.decode (s.data.drop offset) ∧
      (w.look encoding offset).2.Faithful s := by
  obtain ⟨hresult, hfaithful⟩ := Window.charAt_eq h hs encoding offset
  rw [Window.look]
  dsimp only
  rw [hresult]
  exact ⟨rfl, hfaithful⟩

/-- The next cursor of the stream shows what the next one of the text does. -/
theorem streamCursor_step (h : (textStart s encoding tab).Reaches c) {t : Char} {size : Nat}
    (hget : (encoding.chars s.data)[c.position.offset]? = some (t, size)) :
    streamCursor s encoding tab c.step =
      ⟨encoding.decode (s.data.drop (encoding.byteOffset s.data c.position.offset + size)),
        { Position.nextChar tab (streamPlace s encoding c.position) t with
          offset := encoding.byteOffset s.data c.position.offset + size },
        encoding, Position.nextChar tab⟩ := by
  obtain ⟨k, _, rfl, hoffset⟩ := exists_of_reaches h
  have ht : Cursor.current ((textStart s encoding tab).forward k) = some t := by
    rw [TokenCursor.current_forward, rest_textStart, List.getElem?_map, ← hoffset, hget]
    rfl
  have hposition := TokenCursor.position_step ht
  have hrule : ((textStart s encoding tab).forward k).rule = Position.nextChar tab :=
    TokenCursor.rule_forward _ k
  rw [streamCursor, hposition, hrule]
  dsimp only
  rw [Encoding.byteOffset_succ hget, streamPlace, streamPlace, Position.nextChar_mapOffset]
  simp only [Position.mapOffset, Encoding.byteOffset_succ hget]

/-- The stream moves on where the text does. -/
theorem advance_streamCursor (hs : s.NeverFails) {σ : Type}
    (h : (textStart s encoding tab).Reaches c) (ht : (Cursor.current c).isSome) :
    InStep (fun w (_ : σ) => Window.Faithful s w)
      (fun a b => (textStart s encoding tab).Reaches b ∧ a = streamCursor s encoding tab b)
      (advance (streamCursor s encoding tab c)) (advance c) := by
  obtain ⟨⟨t, size⟩, hget⟩ : ∃ l, (encoding.chars s.data)[c.position.offset]? = some l := by
    obtain ⟨k, _, rfl, hoffset⟩ := exists_of_reaches h
    rw [TokenCursor.current_forward, rest_textStart, List.getElem?_map, Option.isSome_map] at ht
    rw [hoffset]
    exact Option.isSome_iff_exists.1 ht
  have hahead := (encoding.decode_byteOffset s.data c.position.offset).trans hget
  intro j i hfaithful
  obtain ⟨hseen, hleft⟩ := look_eq encoding hfaithful hs
    (encoding.byteOffset s.data c.position.offset + size)
  obtain ⟨events, hstream⟩ : ∃ events,
      (advance (streamCursor s encoding tab c) : Run Window WindowCursor) j =
        .ok (streamCursor s encoding tab c.step, ⟨(j.source.look encoding
          (encoding.byteOffset s.data c.position.offset + size)).2, events, j.built⟩) := by
    rw [streamCursor_step h hget, ← hseen]
    rw [streamCursor, hahead]
    exact ⟨_, Run.bind_of_ok (WindowCursor.fetch_eq encoding _ j)⟩
  rw [TokenCursor.advance_eq ht]
  rw [InStepFrom, hstream]
  exact .answered ⟨⟨h.step ht, rfl⟩, hleft⟩

variable (s encoding tab) in
/-- A stream whose reader never fails is like the text that it holds. -/
def agreement (σ : Type) (hs : s.NeverFails) :
    Likeness Window σ WindowCursor (TokenCursor Char) Char where
  source w _ := w.Faithful s
  cursor a c := (textStart s encoding tab).Reaches c ∧ a = streamCursor s encoding tab c
  error a e := (∃ c, (textStart s encoding tab).Reaches c ∧ e.position = c.position) ∧
    a = e.mapPosition (streamPlace s encoding)
  place := streamPlace s encoding
  excused _ _ _ := True
  current := by
    rintro _ c ⟨hc, rfl⟩
    exact current_streamCursor hc
  position := by
    rintro _ c ⟨_, rfl⟩
    rfl
  level := by
    rintro _ c ⟨_, rfl⟩
    rfl
  offset_lt := by
    rintro _ _ c d ⟨hc, rfl⟩ ⟨hd, rfl⟩
    exact streamPlace_lt_iff hc hd
  advance := by
    rintro _ c ⟨hc, rfl⟩ ht
    exact advance_streamCursor hs hc ht
  merge := by
    rintro _ _ e f ⟨⟨c, hc, hce⟩, rfl⟩ ⟨⟨d, hd, hdf⟩, rfl⟩
    have hlt := streamPlace_lt_iff hc hd
    have hgt := streamPlace_lt_iff hd hc
    rw [← hce, ← hdf] at hlt hgt
    constructor
    · rcases e.position_merge f with h | h
      · exact ⟨c, hc, h.trans hce⟩
      · exact ⟨d, hd, h.trans hdf⟩
    · rw [ParseError.mapPosition_merge]
      · simpa only [ParseError.offset, ParseError.position_mapPosition] using hlt
      · simpa only [ParseError.offset, ParseError.position_mapPosition] using hgt
  relabel := by
    rintro _ e label ⟨⟨c, hc, hce⟩, rfl⟩
    refine ⟨⟨c, hc, ?_⟩, (ParseError.mapPosition_relabel label).symm⟩
    rw [← hce]
    cases e <;> rfl
  message := by
    rintro _ c text ⟨hc, rfl⟩
    exact ⟨⟨c, hc, rfl⟩, rfl⟩
  found := by
    rintro _ c u x ⟨hc, rfl⟩ _
    exact ⟨⟨c, hc, rfl⟩, rfl⟩
  misplaced := by
    rintro _ c relation reference ⟨hc, rfl⟩ _
    exact ⟨⟨c, hc, rfl⟩, rfl⟩

variable (encoding tab) in
/-- An opened stream is at the start of its text, and has a faithful window. -/
theorem ofReader_eq (hs : s.NeverFails) {capacity : Nat}
    (hcapacity : WindowCursor.leastWindow ≤ capacity) :
    ∃ j, WindowCursor.ofReader (.ofScript s) capacity encoding (Position.nextChar tab) =
        .ok (streamCursor s encoding tab (textStart s encoding tab), j) ∧ j.source.Faithful s := by
  obtain ⟨hresult, hfaithful⟩ :=
    Window.charAt_eq (Window.faithful_ofReader s hcapacity) hs encoding 0
  refine ⟨⟨_, ((Window.ofReader (.ofScript s) capacity).charAt encoding 0).events, []⟩, ?_,
    hfaithful⟩
  rw [WindowCursor.ofReader, if_neg (Nat.not_lt.2 hcapacity)]
  dsimp only
  rw [hresult]
  rfl

end Agreement

/-- A reply of a stream that says the same as a reply of its text. Runs began at `start` and
`start'`. -/
def SameReply (s : Script) (encoding : Encoding) (start : WindowCursor)
    (start' : TokenCursor Char) : Reply WindowCursor Char Value →
      Reply (TokenCursor Char) Char Value → Prop
  | .ok v c, .ok v' c' =>
    v = v'.mapPosition (streamPlace s encoding) ∧
      Cursor.position c = streamPlace s encoding (Cursor.position c') ∧
      Cursor.current c = Cursor.current c'
  | .fail f, .fail f' =>
    f.error = f'.error.mapPosition (streamPlace s encoding) ∧
      Cursor.position f.cursor = streamPlace s encoding (Cursor.position f'.cursor) ∧
      Cursor.current f.cursor = Cursor.current f'.cursor ∧
      f.consumedSince start = f'.consumedSince start'
  | _, _ => False

theorem sameReply_of_replies {σ : Type} {s : Script} {encoding : Encoding} {tab : Nat}
    {hs : s.NeverFails} {start : WindowCursor} {start' : TokenCursor Char}
    (hstart : (agreement s encoding tab σ hs).cursor start start')
    {r : Reply WindowCursor Char Value} {r' : Reply (TokenCursor Char) Char Value}
    (h : (agreement s encoding tab σ hs).Replies (Value.Alike (streamPlace s encoding)) r r') :
    SameReply s encoding start start' r r' := by
  cases h with
  | ok hv hc => exact ⟨hv, (agreement s encoding tab σ hs).position hc,
      (agreement s encoding tab σ hs).current hc⟩
  | fail hf => exact ⟨hf.1.2, (agreement s encoding tab σ hs).position hf.2,
      (agreement s encoding tab σ hs).current hf.2, Likeness.consumedSince_eq hf hstart⟩

namespace Grammar

/-- The functions and values in a grammar have nothing to do with offsets. -/
def IgnoresOffsets {τ : Type} (g : Grammar τ) : Prop :=
  ∀ f : Nat → Nat, g.Alike (Position.mapOffset f) g

/-- Streams and texts in memory are interchangeable. A stream whose reader never fails can be
opened, and a grammar that makes no errors of its own and ignores offsets has the same replies on
it as on the text that its bytes stand for: both succeed or both fail, with the same values, errors,
lines and columns, and the byte offset of a character for its number. -/
theorem stream_agrees {σ : Type} {s : Script} (hs : s.NeverFails) {capacity : Nat}
    (hcapacity : WindowCursor.leastWindow ≤ capacity) (encoding : Encoding) (tab : Nat)
    {rules : String → Grammar Char} {bound : Nat} {g : Grammar Char}
    (hr : ∀ name, (rules name).Every Plain) (hg : g.Every Plain)
    (hri : ∀ name, (rules name).IgnoresOffsets) (hgi : g.IgnoresOffsets) :
    TokenCursor.ofText (encoding.text s.data) tab =
        .ofList ((encoding.chars s.data).map (·.1)) (Position.nextChar tab) ∧
      ∃ c j, WindowCursor.ofReader (.ofScript s) capacity encoding (Position.nextChar tab) =
          .ok (c, j) ∧
        ∀ k : Journal σ,
          Matched (fun a b => SameReply s encoding c
              (.ofText (encoding.text s.data) tab) a.1 b.1)
            ((run rules bound g c : Run Window _) j)
            ((run rules bound g (.ofText (encoding.text s.data) tab) : Run σ _) k) := by
  constructor
  · simp [TokenCursor.ofText, Encoding.text]
  · obtain ⟨j, hopen, hfaithful⟩ := ofReader_eq encoding tab hs hcapacity
    refine ⟨_, j, hopen, fun k => ?_⟩
    have hadmits (rules : String → Parser (Run σ) (TokenCursor Char) Char Value)
        {g : Grammar Char} (hg : g.Every Plain) :
        g.Every ((agreement s encoding tab σ hs).Admits bound rules) :=
      Likeness.every_admits_of_plain _ bound rules (fun _ _ _ => trivial) hg
    have halike : (agreement s encoding tab σ hs).Alike (Value.Alike (streamPlace s encoding))
        (run rules bound g) (run rules bound g) :=
      Likeness.alike_run (fun name => hri name _) (hgi _) (fun _ name => hadmits _ (hr name))
        (hadmits _ hg)
    have hstart : (agreement s encoding tab σ hs).cursor
        (streamCursor s encoding tab (textStart s encoding tab)) (textStart s encoding tab) :=
      ⟨TokenCursor.reaches_refl _, rfl⟩
    have hrun : InStepFrom _ _ _ _ j k := halike hstart hfaithful
    exact Matched.mono hrun fun _ _ h => sameReply_of_replies hstart h.1

/-- An accented letter in two bytes and a digit, which come in one by one; the second read is
interrupted. -/
def accented : Script := ⟨[0xC3, 0xA9, 0x31], some 1, none, [], [], [2], "unreachable"⟩

example : Encoding.utf8.chars accented.data = [('é', 2), ('1', 1)] := by
  have haccent : Encoding.utf8.decode accented.data = some ('é', 2) := rfl
  have hdigit : Encoding.utf8.decode (accented.data.drop 2) = some ('1', 1) := rfl
  have hend : Encoding.utf8.decode ((accented.data.drop 2).drop 1) = none := rfl
  rw [Encoding.chars_of_some haccent, Encoding.chars_of_some hdigit, Encoding.chars_of_none hend]

theorem stream_agrees_accented :
    ∃ c j, WindowCursor.ofReader (.ofScript accented) 4 .utf8 (Position.nextChar 4) =
        .ok (c, j) ∧
      ∀ k : Journal Unit,
        Matched (fun a b => SameReply accented .utf8 c
            (.ofText (Encoding.utf8.text accented.data) 4) a.1 b.1)
          ((run noRules 8 (spanned identifier) c : Run Window _) j)
          ((run noRules 8 (spanned identifier)
            (.ofText (Encoding.utf8.text accented.data) 4) : Run Unit _) k) := by
  have hs : accented.NeverFails := ⟨rfl, rfl, rfl, by simp [accented]⟩
  have hr (name : String) : (noRules name : Grammar Char).Every Plain := trivial
  have hg : (spanned identifier : Grammar Char).Every Plain := ⟨trivial, trivial⟩
  have hri (name : String) : (noRules name : Grammar Char).IgnoresOffsets := fun _ => .fail _
  have hgi : (spanned identifier : Grammar Char).IgnoresOffsets := fun _ => .spanned .identifier
  exact (stream_agrees hs (by decide) .utf8 4 hr hg hri hgi).2

end Grammar

end Descent

import Descent.Proofs.Inversion
import Descent.Proofs.Steady
import Descent.Proofs.Stream.Refills

/-! Sessions with one stream: it is opened, any cursor that has been come to is moved on, and the
failure that the window keeps is taken, in any order and as often as one likes. The refills of a
session are kept with it, so that it can be said what has failed so far. -/
namespace Descent

namespace Window

variable {s : Script} {size offset : Nat} {encoding : Encoding} {w : Window}

/-- A look serves bytes. If it cannot, it keeps the failure and shows nothing. -/
theorem look_cases (w : Window) (encoding : Encoding) (offset : Nat) :
    (∃ bytes, (w.bytesAt offset encoding.longest).result = .ok bytes ∧
        w.look encoding offset =
          (encoding.decode bytes, (w.bytesAt offset encoding.longest).window)) ∨
      ∃ message, (w.bytesAt offset encoding.longest).result = .error message ∧
        w.look encoding offset =
          (none, { (w.bytesAt offset encoding.longest).window with error := some message }) := by
  rw [look, charAt]
  dsimp only
  cases h : (w.bytesAt offset encoding.longest).result with
  | ok bytes => exact .inl ⟨bytes, rfl, rfl⟩
  | error message => exact .inr ⟨message, rfl, rfl⟩

/-- After a look the window is the one that served it, but for the failure that it keeps. -/
theorem look_window (w : Window) (encoding : Encoding) (offset : Nat) :
    ∃ error, (w.look encoding offset).2 =
      { (w.bytesAt offset encoding.longest).window with error } := by
  obtain ⟨bytes, -, hlook⟩ | ⟨message, -, hlook⟩ := w.look_cases encoding offset
  · exact ⟨_, by rw [hlook]⟩
  · exact ⟨_, by rw [hlook]⟩

namespace Genuine

theorem look (h : w.Genuine s size) (hs : s.Gives) (hoffset : offset ≤ s.data.length) :
    (w.look encoding offset).2.Genuine s size := by
  obtain ⟨error, hlook⟩ := w.look_window encoding offset
  have hserved : (w.bytesAt offset encoding.longest).window.Genuine s size := h.bytesAt hs hoffset
  rw [hlook]
  exact ⟨hserved.script, hserved.capacity, hserved.base, hserved.bytes⟩

theorem knowsEnd_look_iff (h : w.Genuine s size) (hs : s.Gives)
    (hoffset : offset ≤ s.data.length) (hend : w.KnowsEnd s)
    (hclean : ∀ f ∈ w.refillsAt offset encoding.longest, f.Clean) :
    (w.look encoding offset).2.KnowsEnd s ↔
      ∀ f ∈ w.refillsAt offset encoding.longest, ¬f.LosesEnd := by
  obtain ⟨error, hlook⟩ := w.look_window encoding offset
  rw [← h.knowsEnd_bytesAt_iff hs hoffset hend hclean, hlook]
  exact Iff.rfl

theorem knowsEnd_or_astray_look (h : w.Genuine s size) (hs : s.Gives)
    (hoffset : offset ≤ s.data.length)
    (hclean : ∀ f ∈ w.refillsAt offset encoding.longest, f.Clean)
    (hbefore : w.KnowsEnd s ∨ w.Astray s) :
    (w.look encoding offset).2.KnowsEnd s ∨ (w.look encoding offset).2.Astray s := by
  obtain ⟨error, hlook⟩ := w.look_window encoding offset
  rw [hlook]
  exact h.knowsEnd_or_astray_bytesAt hs hoffset hclean hbefore

/-- A character that is seen lies within the data. -/
theorem offset_add_size_le (h : w.Genuine s size) (hs : s.Gives) (hsize : 4 ≤ size)
    (hoffset : offset ≤ s.data.length) {c : Char} {n : Nat}
    (hlook : (w.look encoding offset).1 = some (c, n)) : offset + n ≤ s.data.length := by
  have hlongest : encoding.longest ≤ size := Nat.le_trans encoding.longest_le hsize
  obtain ⟨bytes, hok, hlook'⟩ | ⟨message, -, hlook'⟩ := w.look_cases encoding offset
  · rw [hlook'] at hlook
    have hdecoded := (Encoding.size_of_decode hlook).2
    obtain ⟨-, -, -, hpart, -⟩ := h.bytesAt_ok hs hsize hlongest hok
    have hlength := hpart.length_le
    rw [List.length_drop] at hlength
    omega
  · rw [hlook'] at hlook
    cases hlook

end Genuine

end Window

namespace WindowCursor

variable {c d : WindowCursor} {j k : Journal Window} {encoding : Encoding} {capacity : Nat}

def refills (c : WindowCursor) (w : Window) : List Refill :=
  match c.ahead with
  | none => []
  | some (_, size) => w.refillsAt (c.position.offset + size) c.encoding.longest

theorem refills_eq {ch : Char} {size : Nat} {w : Window} (h : c.ahead = some (ch, size)) :
    c.refills w = w.refillsAt (c.position.offset + size) c.encoding.longest := by
  rw [refills, h]

structure Within (s : Script) (encoding : Encoding) (c : WindowCursor) : Prop where
  encoding : c.encoding = encoding
  size : ∀ ch n, c.ahead = some (ch, n) → c.position.offset + n ≤ s.data.length

/-- To open a stream is to look at its start. -/
theorem ofReader_eq_ok {reader : Reader} {rule : Position → Char → Position}
    (h : ofReader reader capacity encoding rule = .ok (c, j)) :
    leastWindow ≤ capacity ∧ c.encoding = encoding ∧ c.position.offset = 0 ∧
      c.ahead = ((Window.ofReader reader capacity).look encoding 0).1 ∧
      j.source = ((Window.ofReader reader capacity).look encoding 0).2 := by
  rw [ofReader] at h
  split at h
  · cases h
  · rename_i hroom
    rw [Window.look]
    dsimp only at h ⊢
    split at h
    · cases h
    · rename_i ahead hresult
      cases h
      rw [hresult]
      exact ⟨Nat.not_lt.1 hroom, rfl, rfl, rfl, rfl⟩

/-- A cursor that sees a character can be moved on, and sees what is behind it. -/
theorem advance_eq_look {ch : Char} {size : Nat} (h : c.ahead = some (ch, size))
    (j : Journal Window) : (advance c : Run Window WindowCursor) j =
      .ok ({ c with
          ahead := (j.source.look c.encoding (c.position.offset + size)).1
          position := { c.rule c.position ch with offset := c.position.offset + size } },
        ⟨(j.source.look c.encoding (c.position.offset + size)).2,
          j.events ++ j.source.lookEvents c.encoding (c.position.offset + size), j.built⟩) := by
  obtain ⟨ahead, position, encoding, rule⟩ := c
  cases h
  exact Run.bind_of_ok (fetch_eq encoding (position.offset + size) j)

theorem exists_advance {ch : Char} {size : Nat} (h : c.ahead = some (ch, size))
    (j : Journal Window) : ∃ d k, (advance c : Run Window WindowCursor) j = .ok (d, k) :=
  ⟨_, _, advance_eq_look h j⟩

/-- To move on is to look behind the character that is seen. -/
theorem advance_eq_ok (h : (advance c : Run Window WindowCursor) j = .ok (d, k)) :
    ∃ ch size, c.ahead = some (ch, size) ∧ d.encoding = c.encoding ∧
      d.position.offset = c.position.offset + size ∧
      d.ahead = (j.source.look c.encoding d.position.offset).1 ∧
      k.source = (j.source.look c.encoding d.position.offset).2 := by
  obtain ⟨ahead, position, encoding, rule⟩ := c
  cases ahead with
  | none => cases h
  | some next =>
    obtain ⟨ch, size⟩ := next
    obtain ⟨seen, i, hfetch, hnext⟩ := Run.bind_eq_ok.1 h
    cases hfetch.symm.trans (fetch_eq encoding (position.offset + size) j)
    cases hnext
    exact ⟨ch, size, rfl, rfl, rfl, rfl, rfl⟩

/-- A cursor of a known encoding that is moved on: the refills this takes, and what is seen. -/
theorem looks_of_advance (hc : c.encoding = encoding)
    (h : (advance c : Run Window WindowCursor) j = .ok (d, k)) :
    d.encoding = encoding ∧
      (∃ ch size, c.ahead = some (ch, size) ∧ d.position.offset = c.position.offset + size) ∧
      c.refills j.source = j.source.refillsAt d.position.offset encoding.longest ∧
      d.ahead = (j.source.look encoding d.position.offset).1 ∧
      k.source = (j.source.look encoding d.position.offset).2 := by
  obtain ⟨ch, size, hahead, hencoding, hplace, hlook⟩ := advance_eq_ok h
  subst hc
  refine ⟨hencoding, ⟨ch, size, hahead, hplace⟩, ?_, hlook⟩
  rw [refills_eq hahead, hplace]

theorem takeError_eq_ok {error : Option String} (h : takeError j = .ok (error, k)) :
    k.source = { j.source with error := none } := by
  cases h
  rfl

end WindowCursor

/-- The cursors that have been come to, what has become of the window, and its refills. -/
structure Session where
  cursors : List WindowCursor
  journal : Journal Window
  refills : List Refill

namespace Session

/-- What may be done next: a cursor is moved on, or the failure that the window keeps is taken. -/
inductive Step : Session → Session → Prop where
  | advance {s : Session} {c d : WindowCursor} {j : Journal Window} (hc : c ∈ s.cursors)
    (h : (advance c : Run Window WindowCursor) s.journal = .ok (d, j)) :
    Step s ⟨d :: s.cursors, j, c.refills s.journal.source ++ s.refills⟩
  | takeError {s : Session} {error : Option String} {j : Journal Window}
    (h : WindowCursor.takeError s.journal = .ok (error, j)) : Step s { s with journal := j }

/-- Sessions with a stream, from just before it is opened on. -/
inductive Reached (script : Script) (capacity : Nat) (encoding : Encoding)
    (rule : Position → Char → Position) : Session → Prop where
  | fresh (h : WindowCursor.leastWindow ≤ capacity) :
    Reached script capacity encoding rule ⟨[], ⟨.ofReader (.ofScript script) capacity, [], []⟩, []⟩
  | opened {c : WindowCursor} {j : Journal Window}
    (h : WindowCursor.ofReader (.ofScript script) capacity encoding rule = .ok (c, j)) :
    Reached script capacity encoding rule
      ⟨[c], j, (Window.ofReader (.ofScript script) capacity).refillsAt 0 encoding.longest⟩
  | step {s t : Session} (hs : Reached script capacity encoding rule s) (h : s.Step t) :
    Reached script capacity encoding rule t

variable {script : Script} {capacity : Nat} {encoding : Encoding}
  {rule : Position → Char → Position} {s t : Session}

/-- What holds before a stream is opened, and is kept by every cursor that looks at the start of the
data or behind a character that another one sees, and by taking a failure, holds in every
session. -/
theorem Reached.keeps {P : Session → Prop} (h : s.Reached script capacity encoding rule)
    (fresh : WindowCursor.leastWindow ≤ capacity →
      P ⟨[], ⟨.ofReader (.ofScript script) capacity, [], []⟩, []⟩)
    (look : ∀ {s : Session} {c : WindowCursor} {j : Journal Window}, P s → c.encoding = encoding →
      (c.position.offset = 0 ∨ ∃ b ∈ s.cursors, ∃ ch n, b.ahead = some (ch, n) ∧
        c.position.offset = b.position.offset + n) →
      c.ahead = (s.journal.source.look encoding c.position.offset).1 →
      j.source = (s.journal.source.look encoding c.position.offset).2 →
      P ⟨c :: s.cursors, j,
        s.journal.source.refillsAt c.position.offset encoding.longest ++ s.refills⟩)
    (taken : ∀ {s : Session} {j : Journal Window}, P s →
      j.source = { s.journal.source with error := none } → P { s with journal := j }) : P s := by
  have hboth : (∀ c ∈ s.cursors, c.encoding = encoding) ∧ P s := by
    induction h with
    | fresh hroomy => exact ⟨List.forall_mem_nil _, fresh hroomy⟩
    | opened hopen =>
      obtain ⟨hroomy, hencoding, hplace, hahead, hsource⟩ := WindowCursor.ofReader_eq_ok hopen
      rw [← hplace] at hahead hsource ⊢
      have hlook := look (fresh hroomy) hencoding (.inl hplace) hahead hsource
      rw [List.append_nil] at hlook
      exact ⟨List.forall_mem_singleton.2 hencoding, hlook⟩
    | step _ hst ih =>
      obtain ⟨hencoded, hkept⟩ := ih
      cases hst with
      | advance hc hadvance =>
        obtain ⟨hencoding, hbehind, hrefills, hahead, hsource⟩ :=
          WindowCursor.looks_of_advance (hencoded _ hc) hadvance
        rw [hrefills]
        exact ⟨List.forall_mem_cons.2 ⟨hencoding, hencoded⟩,
          look hkept hencoding (.inr ⟨_, hc, hbehind⟩) hahead hsource⟩
      | takeError htake => exact ⟨hencoded, taken hkept (WindowCursor.takeError_eq_ok htake)⟩
  exact hboth.2

theorem Reached.encoded (h : s.Reached script capacity encoding rule) :
    ∀ c ∈ s.cursors, c.encoding = encoding := by
  apply h.keeps (P := fun s => ∀ c ∈ s.cursors, c.encoding = encoding)
  · exact fun _ => List.forall_mem_nil _
  · exact fun h hencoding _ _ _ => List.forall_mem_cons.2 ⟨hencoding, h⟩
  · exact fun h _ => h

/-- The window shows the data and so do the cursors. As long as reads fail only before there is a
byte, the window knows where the data end or is astray, and it knows as long as no refill has lost
the end. -/
structure Sound (script : Script) (capacity : Nat) (encoding : Encoding) (s : Session) :
    Prop where
  roomy : WindowCursor.leastWindow ≤ capacity
  window : s.journal.source.Genuine script capacity
  cursors : ∀ c ∈ s.cursors, c.Within script encoding
  knowsEnd : (∀ f ∈ s.refills, f.Clean) → (∀ f ∈ s.refills, ¬f.LosesEnd) →
    s.journal.source.KnowsEnd script
  astray : (∀ f ∈ s.refills, f.Clean) →
    s.journal.source.KnowsEnd script ∨ s.journal.source.Astray script

theorem sound_fresh (h : WindowCursor.leastWindow ≤ capacity) :
    Sound script capacity encoding ⟨[], ⟨.ofReader (.ofScript script) capacity, [], []⟩, []⟩ :=
  ⟨h, Window.genuine_ofReader _ _, nofun, fun _ _ => nofun, fun _ => .inl nofun⟩

/-- A session stays sound when a cursor is added that shows what is seen at its offset. -/
theorem Sound.look (h : s.Sound script capacity encoding) (hgives : script.Gives)
    {c : WindowCursor} {j : Journal Window} (hoffset : c.position.offset ≤ script.data.length)
    (hencoding : c.encoding = encoding)
    (hahead : c.ahead = (s.journal.source.look encoding c.position.offset).1)
    (hsource : j.source = (s.journal.source.look encoding c.position.offset).2) :
    Sound script capacity encoding ⟨c :: s.cursors, j,
      s.journal.source.refillsAt c.position.offset encoding.longest ++ s.refills⟩ := by
  have hwithin : c.Within script encoding := ⟨hencoding, fun ch n hsome =>
    h.window.offset_add_size_le hgives h.roomy hoffset (hahead.symm.trans hsome)⟩
  refine ⟨h.roomy, ?_, List.forall_mem_cons.2 ⟨hwithin, h.cursors⟩, fun hclean hkeeps => ?_,
    fun hclean => ?_⟩
  · dsimp only
    rw [hsource]
    exact h.window.look hgives hoffset
  · rw [List.forall_mem_append] at hclean hkeeps
    have hknows := h.knowsEnd hclean.2 hkeeps.2
    dsimp only
    rw [hsource]
    exact (h.window.knowsEnd_look_iff hgives hoffset hknows hclean.1).2 hkeeps.1
  · rw [List.forall_mem_append] at hclean
    dsimp only
    rw [hsource]
    exact h.window.knowsEnd_or_astray_look hgives hoffset hclean.1 (h.astray hclean.2)

/-- A cursor that is moved on shows what is seen at its new offset. -/
theorem Sound.of_advance (h : s.Sound script capacity encoding) {c d : WindowCursor}
    {j : Journal Window} (hc : c ∈ s.cursors)
    (hadvance : (advance c : Run Window WindowCursor) s.journal = .ok (d, j)) :
    d.encoding = encoding ∧ d.position.offset ≤ script.data.length ∧
      c.refills s.journal.source =
        s.journal.source.refillsAt d.position.offset encoding.longest ∧
      d.ahead = (s.journal.source.look encoding d.position.offset).1 ∧
      j.source = (s.journal.source.look encoding d.position.offset).2 := by
  obtain ⟨hencoded, hsize⟩ := h.cursors c hc
  obtain ⟨hencoding, ⟨ch, size, hahead, hplace⟩, hlooks⟩ :=
    WindowCursor.looks_of_advance hencoded hadvance
  exact ⟨hencoding, hplace ▸ hsize ch size hahead, hlooks⟩

theorem Reached.sound (h : s.Reached script capacity encoding rule) (hgives : script.Gives) :
    s.Sound script capacity encoding := by
  refine h.keeps sound_fresh (fun h hencoding hbehind hahead hsource => ?_) fun h hsource => ?_
  · refine h.look hgives ?_ hencoding hahead hsource
    rcases hbehind with hzero | ⟨b, hb, ch, n, hsome, hplace⟩
    · exact hzero ▸ Nat.zero_le _
    · exact hplace ▸ (h.cursors b hb).size ch n hsome
  · refine ⟨h.roomy, ?_, h.cursors, fun hclean hkeeps => ?_, fun hclean => ?_⟩
    · rw [hsource]
      exact ⟨h.window.script, h.window.capacity, h.window.base, h.window.bytes⟩
    · rw [hsource]
      exact h.knowsEnd hclean hkeeps
    · rw [hsource]
      exact h.astray hclean

/-- The window never serves a wrong byte. Whatever has failed in a session, the window holds the
data from its base on and no more of them than it has room for. Bytes that it serves are a part of
it and come from the data, and they are fewer than asked for only at the end of the data, unless a
read has failed in the session. -/
theorem Reached.serves_data (h : s.Reached script capacity encoding rule)
    (hgives : script.Gives) :
    s.journal.source.bytes = (script.data.drop s.journal.source.base).take
        s.journal.source.bytes.length ∧
      s.journal.source.base + s.journal.source.bytes.length ≤ script.data.length ∧
      s.journal.source.bytes.length ≤ capacity ∧ encoding.longest ≤ capacity ∧
      ∀ offset want bytes w, want ≤ capacity →
        (s.journal.source.bytesAt offset want).result = .ok bytes →
        (s.journal.source.bytesAt offset want).window = w →
        (w.base ≤ offset ∧ offset - w.base ≤ min (offset - w.base + want) w.bytes.length) ∧
          bytes = w.slice offset want ∧ bytes <+: script.data.drop offset ∧
          (bytes.length < want → bytes.length < (script.data.drop offset).length →
            ∃ f ∈ s.journal.source.refillsAt offset want ++ s.refills, f.ReadFails) := by
  obtain ⟨hroomy, hwindow, -, hend, -⟩ := h.sound hgives
  refine ⟨List.prefix_iff_eq_take.1 hwindow.prefix_data, hwindow.stop_le, hwindow.length_le,
    Nat.le_trans encoding.longest_le hroomy, ?_⟩
  rintro offset want bytes w hwant hok rfl
  obtain ⟨hbase, hstop, hslice, hpart, hfull⟩ := hwindow.bytesAt_ok hgives hroomy hwant hok
  refine ⟨⟨hbase, ?_⟩, hslice, hpart, fun hshort hmore => ?_⟩
  · rw [Window.stop] at hstop
    omega
  · by_contra hnone
    simp only [not_exists, not_and, List.forall_mem_append] at hnone
    have hknows := hend (fun f hf => Refill.clean_of_not_readFails (hnone.2 f hf))
      fun f hf => Refill.not_losesEnd_of_not_readFails (hnone.2 f hf)
    rw [hfull (fun _ => hknows) hnone.1, List.length_take] at hshort hmore
    omega

/-- Three bytes that are read two at a time. The second read fails. -/
def cutShort : Script := ⟨[97, 98, 99], some 2, none, [2], [], [], "cut"⟩

/-- The window has no byte at offset 2, where the data have one, so a read has failed. -/
theorem serves_data_cutShort :
    ∃ s : Session, s.Reached cutShort 4 .latin1 (Position.nextChar 4) ∧
      (s.journal.source.bytesAt 2 1).result = .ok [] ∧
      ∃ f ∈ s.journal.source.refillsAt 2 1 ++ s.refills, f.ReadFails := by
  have hopen : WindowCursor.ofReader (.ofScript cutShort) 4 .latin1 (Position.nextChar 4) =
      .ok (⟨some ('a', 1), .start, .latin1, Position.nextChar 4⟩,
        ⟨⟨⟨cutShort, 2, 2, 1⟩, 4, 0, [97, 98], true, 1, some "cut"⟩,
          [.readFailed 0 (some 2) "cut", .refilled 0 2 1], []⟩) := by with_unfolding_all rfl
  have hgives : cutShort.Gives := by
    rintro n ⟨⟩
    exact Nat.two_pos
  obtain ⟨-, -, -, -, hserves⟩ := (Reached.opened hopen).serves_data hgives
  obtain ⟨-, -, -, hfails⟩ := hserves 2 1 [] _ (by decide) rfl rfl
  exact ⟨_, .opened hopen, rfl, hfails (by decide) (by decide)⟩

end Session

end Descent

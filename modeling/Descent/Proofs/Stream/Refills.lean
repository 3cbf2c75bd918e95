import Descent.Proofs.Stream.Faithful

/-! Refills of a window whose reader may fail. A refill ends in one of three ways: its seek fails
and the window stays as it was, its reads fail before there is a byte and the window loses those
it had, or there are bytes and the window holds them. Whatever happens the window shows a part of
the data. -/
namespace Descent

structure Refill where
  window : Window
  offset : Nat

/-- Seeks change no data. One that does not fail leads to its offset. -/
theorem Reader.seek_eq (r : Reader) (offset : Nat) : (r.seek offset).2.script = r.script ∧
    ((r.seek offset).1 = .ok () → (r.seek offset).2.place = offset) := by
  unfold seek
  dsimp only
  split
  · exact ⟨rfl, nofun⟩
  · exact ⟨rfl, fun _ => rfl⟩

namespace Refill

variable (f : Refill)

def SeekFails : Prop := ∃ message, (f.window.reader.seek f.offset).1 = .error message

def reads : List ReadResult :=
  match f.window.reader.seek f.offset with
  | (.error _, _) => []
  | (.ok (), reader) => reader.readsUpTo f.window.capacity

def ReadFails : Prop := ∃ message, .failed message ∈ f.reads

def Fails : Prop := f.SeekFails ∨ f.ReadFails

def bytes : List UInt8 := f.reads.flatMap ReadResult.bytes

/-- Reads fail at most before there is a byte. -/
def Clean : Prop := f.ReadFails → f.bytes = []

/-- Its reads fail before there is a byte, and the window that it empties had bytes up to the end
of the input. The window still says that the input ends with it, but it stands where its first byte
was. -/
def LosesEnd : Prop :=
  f.window.exhausted = true ∧ f.window.bytes ≠ [] ∧ f.ReadFails ∧ f.bytes = []

def failure? : Option String := f.reads.findSome? ReadResult.failure?

def reader : Reader := f.reads.foldl Reader.after (f.window.reader.seek f.offset).2

inductive Ends : Served Unit → Prop where
  | unsought {message : String} (h : f.SeekFails) :
    Ends ⟨.error message, [], { f.window with reader := f.reader }⟩
  | unread {message : String} (h : f.failure? = some message) (hb : f.bytes = []) :
    Ends ⟨.error message, [], { f.window with reader := f.reader, bytes := [] }⟩
  | filled {events : List Event} (h : ¬f.SeekFails) (hb : f.bytes = [] → f.failure? = none) :
    Ends ⟨.ok (), events, { f.window with
      reader := f.reader
      base := f.offset
      bytes := f.bytes
      exhausted := f.bytes.length < f.window.capacity
      refills := f.window.refills + 1
      error := f.failure?.or f.window.error }⟩

variable {f}

theorem failure?_eq_none : f.failure? = none ↔ ¬f.ReadFails := by
  simp only [failure?, List.findSome?_eq_none_iff, ReadFails, not_exists]
  constructor
  · intro h message hmem
    cases h _ hmem
  · rintro h (_ | message | _) hmem
    · rfl
    · exact absurd hmem (h message)
    · rfl

instance : Decidable f.SeekFails :=
  match h : (f.window.reader.seek f.offset).1 with
  | .error message => .isTrue ⟨message, h⟩
  | .ok () => .isFalse fun ⟨_, h'⟩ => nomatch h.symm.trans h'

instance : Decidable f.ReadFails :=
  decidable_of_iff (f.failure? ≠ none) (not_congr failure?_eq_none |>.trans not_not)

instance : Decidable f.Fails := inferInstanceAs (Decidable (f.SeekFails ∨ f.ReadFails))

instance : Decidable f.Clean := inferInstanceAs (Decidable (f.ReadFails → f.bytes = []))

instance : Decidable f.LosesEnd := inferInstanceAs
  (Decidable (f.window.exhausted = true ∧ f.window.bytes ≠ [] ∧ f.ReadFails ∧ f.bytes = []))

theorem readFails_of_failure? {message : String} (h : f.failure? = some message) :
    f.ReadFails := by
  by_contra hr
  rw [failure?_eq_none.2 hr] at h
  cases h

/-- After a seek that fails there are no reads. -/
theorem seek_of_fails (h : f.SeekFails) :
    ∃ message, f.window.reader.seek f.offset = (.error message, f.reader) ∧ f.reads = [] := by
  obtain ⟨message, h⟩ := h
  rcases hseek : f.window.reader.seek f.offset with ⟨message | ⟨⟩, reader⟩
  · have hreads : f.reads = [] := by rw [reads, hseek]
    refine ⟨message, ?_, hreads⟩
    rw [Refill.reader, hreads, hseek, List.foldl_nil]
  · rw [hseek] at h
    cases h

theorem not_readFails_of_seekFails (h : f.SeekFails) : ¬f.ReadFails := by
  obtain ⟨-, -, hreads⟩ := seek_of_fails h
  rintro ⟨message, hmem⟩
  rw [hreads] at hmem
  cases hmem

theorem clean_of_not_readFails (h : ¬f.ReadFails) : f.Clean := fun hread => absurd hread h

/-- Reads that fail only before there is a byte do not fail in a refill that fills the window. -/
theorem not_readFails_of_clean (h : f.Clean) (hempty : f.bytes = [] → f.failure? = none) :
    ¬f.ReadFails := fun hread => failure?_eq_none.1 (hempty (h hread)) hread

theorem not_losesEnd_of_not_readFails (h : ¬f.ReadFails) : ¬f.LosesEnd :=
  fun hloses => h hloses.2.2.1

/-- After any other seek the reader reads what the window has room for. -/
theorem seek_of_not_fails (h : ¬f.SeekFails) :
    ∃ reader, f.window.reader.seek f.offset = (.ok (), reader) ∧ reader.place = f.offset ∧
      reader.script = f.window.reader.script ∧
      reader.readUpTo f.window.capacity = (f.bytes, f.failure?, f.reader) := by
  obtain ⟨hscript, hplace⟩ := Reader.seek_eq f.window.reader f.offset
  rcases hseek : f.window.reader.seek f.offset with ⟨message | ⟨⟩, reader⟩
  · exact absurd ⟨message, by rw [hseek]⟩ h
  · rw [hseek] at hscript hplace
    have hreads : f.reads = reader.readsUpTo f.window.capacity := by rw [reads, hseek]
    refine ⟨reader, rfl, hplace rfl, hscript, ?_⟩
    rw [Reader.readUpTo_eq_reads, bytes, failure?, Refill.reader, hseek, hreads]

/-- There are no other ways for a fill to end. -/
theorem ends_fill (f : Refill) : f.Ends (f.window.fill f.offset) := by
  rw [Window.fill]
  by_cases h : f.SeekFails
  · obtain ⟨message, hseek, -⟩ := seek_of_fails h
    rw [hseek]
    exact .unsought h
  · obtain ⟨reader, hseek, -, -, hrow⟩ := seek_of_not_fails h
    have hfilled (hb : f.bytes = [] → f.failure? = none) (events : List Event) :
        f.Ends ⟨.ok (), events, _⟩ := .filled h hb
    rw [hseek]
    dsimp only
    rw [hrow]
    cases hb : f.bytes with
    | nil =>
      cases hf : f.failure? with
      | some message => exact .unread hf hb
      | none =>
        rw [hb, hf] at hfilled
        exact hfilled (fun _ => rfl) _
    | cons b more =>
      rw [hb] at hfilled
      exact hfilled (fun h => absurd h (List.cons_ne_nil b more)) _

/-- What is read comes from the offset on, and without a failure it is all that the window has
room for. -/
theorem bytes_prefix (h : f.window.reader.script.Gives) :
    f.reader.script = f.window.reader.script ∧
      f.bytes <+: (f.window.reader.script.data.drop f.offset).take f.window.capacity ∧
      (¬f.Fails →
        f.bytes = (f.window.reader.script.data.drop f.offset).take f.window.capacity) := by
  by_cases hf : f.SeekFails
  · obtain ⟨message, hseek, hreads⟩ := seek_of_fails hf
    have hscript := (Reader.seek_eq f.window.reader f.offset).1
    rw [hseek] at hscript
    rw [bytes, hreads]
    exact ⟨hscript, List.nil_prefix, fun hok => absurd (.inl hf) hok⟩
  · obtain ⟨reader, -, hplace, hscript, hrow⟩ := seek_of_not_fails hf
    obtain ⟨bytes, failure, last, hread, hlast, hpart, hfull⟩ :=
      reader.readUpTo_part f.window.capacity (hscript ▸ h)
    cases hrow.symm.trans hread
    rw [← hscript, ← hplace]
    exact ⟨hlast, hpart, fun hok => hfull (failure?_eq_none.2 fun hr => hok (.inr hr))⟩

end Refill

namespace Window

variable {s : Script} {size want offset : Nat} {w : Window}

/-- A window of the given size that shows a part of the data of its reader. -/
structure Genuine (s : Script) (size : Nat) (w : Window) : Prop where
  script : w.reader.script = s
  capacity : w.capacity = size
  base : w.base ≤ s.data.length
  bytes : w.bytes <+: (s.data.drop w.base).take size

def KnowsEnd (s : Script) (w : Window) : Prop := w.exhausted = true → w.stop = s.data.length

/-- The window says that the input ends with it although the data go on, and has no bytes. -/
def Astray (s : Script) (w : Window) : Prop :=
  w.exhausted = true ∧ w.bytes = [] ∧ w.base < s.data.length

/-- What is seen from an offset on comes from there in the data. -/
theorem slice_prefix_drop {data : List UInt8} (h : w.bytes <+: data.drop w.base)
    (hoffset : w.base ≤ offset) (want : Nat) : w.slice offset want <+: data.drop offset := by
  obtain ⟨more, hmore⟩ := h
  have hdrop : data.drop offset = (w.bytes ++ more).drop (offset - w.base) := by
    rw [hmore, List.drop_drop, Nat.add_sub_cancel' hoffset]
  rw [hdrop, slice, List.drop_append]
  exact (List.take_prefix _ _).trans (List.prefix_append _ _)

theorem genuine_ofReader (s : Script) (size : Nat) :
    (ofReader (.ofScript s) size).Genuine s size :=
  ⟨rfl, rfl, Nat.zero_le _, List.nil_prefix⟩

namespace Genuine

theorem prefix_data (h : w.Genuine s size) : w.bytes <+: s.data.drop w.base :=
  h.bytes.trans (List.take_prefix _ _)

theorem length_le (h : w.Genuine s size) : w.bytes.length ≤ size :=
  Nat.le_trans h.bytes.length_le (List.length_take_le _ _)

theorem stop_le (h : w.Genuine s size) : w.stop ≤ s.data.length := by
  have hlength := h.prefix_data.length_le
  have hbase := h.base
  rw [List.length_drop] at hlength
  rw [stop]
  omega

/-- A window with room for every character that knows where the data end serves as one over a
reader that never fails. -/
theorem faithful (h : w.Genuine s size) (hsize : 4 ≤ size) (hend : w.KnowsEnd s) :
    w.Faithful s := by
  refine ⟨h.script, h.capacity ▸ hsize, h.prefix_data, fun hexhausted => ?_⟩
  have hstop := hend hexhausted
  refine h.prefix_data.eq_of_length ?_
  rw [stop] at hstop
  rw [List.length_drop]
  omega

theorem slice_prefix (h : w.Genuine s size) (hoffset : w.base ≤ offset) (want : Nat) :
    w.slice offset want <+: s.data.drop offset :=
  slice_prefix_drop h.prefix_data hoffset want

section Refill

variable {f : Refill} {served : Served Unit}

theorem refill (h : f.window.Genuine s size) (hs : s.Gives) :
    f.reader.script = s ∧ f.bytes <+: (s.data.drop f.offset).take size ∧
      (¬f.Fails → f.bytes = (s.data.drop f.offset).take size) := by
  obtain ⟨hscript, hpart, hfull⟩ := Refill.bytes_prefix (f := f) (h.script ▸ hs)
  rw [h.script, h.capacity] at hpart hfull
  exact ⟨hscript.trans h.script, hpart, hfull⟩

/-- However a refill ends, the window shows a part of the data. -/
theorem ends (h : f.window.Genuine s size) (hs : s.Gives) (hoffset : f.offset ≤ s.data.length)
    (he : f.Ends served) : served.window.Genuine s size := by
  obtain ⟨hscript, hpart, -⟩ := h.refill hs
  cases he with
  | unsought => exact ⟨hscript, h.capacity, h.base, h.bytes⟩
  | unread => exact ⟨hscript, h.capacity, h.base, List.nil_prefix⟩
  | filled => exact ⟨hscript, h.capacity, hoffset, hpart⟩

/-- A refill that does not fail comes to the end of the data when it does not fill the window. -/
theorem end_of_short (h : f.window.Genuine s size) (hs : s.Gives)
    (hoffset : f.offset ≤ s.data.length) (hnone : ¬f.Fails)
    (hshort : f.bytes.length < f.window.capacity) : f.offset + f.bytes.length = s.data.length := by
  have hlength := congrArg List.length ((h.refill hs).2.2 hnone)
  rw [h.capacity] at hshort
  rw [List.length_take, List.length_drop] at hlength
  omega

/-- A window that knows where the data end does so after a refill, unless that is how the refill
ends. -/
theorem knowsEnd_iff (h : f.window.Genuine s size) (hs : s.Gives)
    (hoffset : f.offset ≤ s.data.length) (hend : f.window.KnowsEnd s) (hclean : f.Clean)
    (he : f.Ends served) : served.window.KnowsEnd s ↔ ¬f.LosesEnd := by
  cases he with
  | unsought hseek =>
    have hread := Refill.not_readFails_of_seekFails hseek
    exact ⟨fun _ => Refill.not_losesEnd_of_not_readFails hread, fun _ => hend⟩
  | unread hfailure hnil =>
    have hread := Refill.readFails_of_failure? hfailure
    constructor
    · rintro hknows ⟨hexhausted, hbytes, -, -⟩
      have hbefore : f.window.base + f.window.bytes.length = s.data.length := hend hexhausted
      have hafter : f.window.base + 0 = s.data.length := hknows hexhausted
      exact hbytes (List.length_eq_zero_iff.1 (by omega))
    · intro hkeeps hexhausted
      have hbytes : f.window.bytes = [] := by
        by_contra hbytes
        exact hkeeps ⟨hexhausted, hbytes, hread, hnil⟩
      have hbefore := hend hexhausted
      rw [stop, hbytes] at hbefore
      exact hbefore
  | filled hseek hempty =>
    have hread := Refill.not_readFails_of_clean hclean hempty
    exact ⟨fun _ => Refill.not_losesEnd_of_not_readFails hread, fun _ hexhausted =>
      h.end_of_short hs hoffset (not_or.2 ⟨hseek, hread⟩) (of_decide_eq_true hexhausted)⟩

/-- After reads that fail only before there is a byte, a window that does not know where the data
end has no bytes. -/
theorem knowsEnd_or_astray (h : f.window.Genuine s size) (hs : s.Gives)
    (hoffset : f.offset ≤ s.data.length) (hclean : f.Clean)
    (hbefore : f.window.KnowsEnd s ∨ f.window.Astray s) (he : f.Ends served) :
    served.window.KnowsEnd s ∨ served.window.Astray s := by
  cases he with
  | unsought => exact hbefore
  | unread =>
    rcases Nat.lt_or_eq_of_le h.base with hbase | hbase
    · by_cases hexhausted : f.window.exhausted = true
      · exact .inr ⟨hexhausted, rfl, hbase⟩
      · exact .inl fun h' => absurd h' hexhausted
    · exact .inl fun _ => hbase
  | filled hseek hempty =>
    have hread := Refill.not_readFails_of_clean hclean hempty
    exact .inl fun hexhausted =>
      h.end_of_short hs hoffset (not_or.2 ⟨hseek, hread⟩) (of_decide_eq_true hexhausted)

end Refill

end Genuine

def refillsAt (w : Window) (offset want : Nat) : List Refill :=
  if w.covers offset want then [] else [⟨w, offset⟩]

theorem covers_iff : w.covers offset want = true ↔
    w.base ≤ offset ∧ (offset + want ≤ w.stop ∨ w.exhausted = true ∧ offset ≤ w.stop) := by
  simp [covers]

/-- Bytes are there, or the window is filled with them. -/
theorem bytesAt_cases (w : Window) (offset want : Nat) :
    (w.covers offset want = true ∧ w.refillsAt offset want = [] ∧
        w.bytesAt offset want = ⟨.ok (w.slice offset want), [], w⟩) ∨
      (w.refillsAt offset want = [⟨w, offset⟩] ∧ ∃ filled, w.fill offset = filled ∧
        (Refill.mk w offset).Ends filled ∧
        w.bytesAt offset want = ⟨filled.result.map fun _ => filled.window.slice offset want,
          filled.events, filled.window⟩) := by
  rw [bytesAt, refillsAt]
  by_cases h : w.covers offset want = true
  · rw [if_pos h, if_pos h]
    exact .inl ⟨h, rfl, rfl⟩
  · rw [if_neg h, if_neg h]
    exact .inr ⟨rfl, _, rfl, (Refill.mk w offset).ends_fill, rfl⟩

/-- Bytes that cannot be served are those of a refill that fails with the same message. -/
theorem fails_of_bytesAt {message : String}
    (h : (w.bytesAt offset want).result = .error message) :
    ∃ f ∈ w.refillsAt offset want, f.Fails ∧
      (f.window.fill f.offset).result = .error message := by
  obtain ⟨-, -, hserved⟩ | ⟨hrefills, filled, hfill, hends, hserved⟩ := w.bytesAt_cases offset want
  · rw [hserved] at h
    cases h
  · rw [hserved] at h
    rw [hrefills]
    cases hends with
    | unsought hseek =>
      cases h
      exact ⟨_, List.mem_singleton_self _, .inl hseek, congrArg Served.result hfill⟩
    | unread hfailure =>
      cases h
      exact ⟨_, List.mem_singleton_self _, .inr (Refill.readFails_of_failure? hfailure),
        congrArg Served.result hfill⟩
    | filled => cases h

/-- A refill whose reads fail early or not at all serves bytes only if they do not. -/
theorem not_readFails_of_bytesAt {bytes : List UInt8}
    (h : (w.bytesAt offset want).result = .ok bytes)
    (hclean : ∀ f ∈ w.refillsAt offset want, f.Clean) :
    ∀ f ∈ w.refillsAt offset want, ¬f.ReadFails := by
  obtain ⟨-, hrefills, -⟩ | ⟨hrefills, filled, -, hends, hserved⟩ := w.bytesAt_cases offset want
  · rw [hrefills]
    exact nofun
  · rw [hserved] at h
    rw [hrefills, List.forall_mem_singleton] at hclean ⊢
    cases hends with
    | unsought => cases h
    | unread => cases h
    | filled _ hempty => exact Refill.not_readFails_of_clean hclean hempty

namespace Genuine

theorem bytesAt (h : w.Genuine s size) (hs : s.Gives) (hoffset : offset ≤ s.data.length) :
    (w.bytesAt offset want).window.Genuine s size := by
  obtain ⟨-, -, hserved⟩ | ⟨-, filled, -, hends, hserved⟩ := w.bytesAt_cases offset want
  · rw [hserved]
    exact h
  · rw [hserved]
    exact ends (f := ⟨w, offset⟩) h hs hoffset hends

theorem knowsEnd_bytesAt_iff (h : w.Genuine s size) (hs : s.Gives)
    (hoffset : offset ≤ s.data.length) (hend : w.KnowsEnd s)
    (hclean : ∀ f ∈ w.refillsAt offset want, f.Clean) :
    (w.bytesAt offset want).window.KnowsEnd s ↔
      ∀ f ∈ w.refillsAt offset want, ¬f.LosesEnd := by
  obtain ⟨-, hrefills, hserved⟩ | ⟨hrefills, filled, -, hends, hserved⟩ :=
    w.bytesAt_cases offset want
  · rw [hserved, hrefills]
    exact ⟨fun _ => nofun, fun _ => hend⟩
  · rw [hrefills, List.forall_mem_singleton] at hclean ⊢
    rw [hserved]
    exact knowsEnd_iff (f := ⟨w, offset⟩) h hs hoffset hend hclean hends

theorem knowsEnd_or_astray_bytesAt (h : w.Genuine s size) (hs : s.Gives)
    (hoffset : offset ≤ s.data.length) (hclean : ∀ f ∈ w.refillsAt offset want, f.Clean)
    (hbefore : w.KnowsEnd s ∨ w.Astray s) :
    (w.bytesAt offset want).window.KnowsEnd s ∨ (w.bytesAt offset want).window.Astray s := by
  obtain ⟨-, -, hserved⟩ | ⟨hrefills, filled, -, hends, hserved⟩ := w.bytesAt_cases offset want
  · rw [hserved]
    exact hbefore
  · rw [hrefills, List.forall_mem_singleton] at hclean
    rw [hserved]
    exact knowsEnd_or_astray (f := ⟨w, offset⟩) h hs hoffset hclean hbefore hends

/-- Bytes that are served are those of the window, and stand within it. They come from the data,
and there are fewer than asked for only at the end of the data, unless a read fails or the bytes
are there and the window does not know where the data end. -/
theorem bytesAt_ok (h : w.Genuine s size) (hs : s.Gives) (hsize : 4 ≤ size) (hwant : want ≤ size)
    {bytes : List UInt8} (hok : (w.bytesAt offset want).result = .ok bytes) :
    (w.bytesAt offset want).window.base ≤ offset ∧
      offset ≤ (w.bytesAt offset want).window.stop ∧
      bytes = (w.bytesAt offset want).window.slice offset want ∧
      bytes <+: s.data.drop offset ∧
      ((w.covers offset want = true → w.KnowsEnd s) →
        (∀ f ∈ w.refillsAt offset want, ¬f.ReadFails) →
          bytes = (s.data.drop offset).take want) := by
  obtain ⟨hcovers, -, hserved⟩ | ⟨hrefills, filled, -, hends, hserved⟩ :=
    w.bytesAt_cases offset want
  · rw [hserved] at hok ⊢
    cases hok
    obtain ⟨hbase, hstop⟩ := covers_iff.1 hcovers
    refine ⟨hbase, ?_, rfl, h.slice_prefix hbase want, fun hend _ => ?_⟩
    · rcases hstop with hstop | ⟨-, hstop⟩
      · exact Nat.le_trans (Nat.le_add_right _ _) hstop
      · exact hstop
    · exact slice_eq (h.faithful hsize (hend hcovers)) hcovers
  · rw [hserved] at hok ⊢
    cases hends with
    | unsought => cases hok
    | unread => cases hok
    | filled hseek hempty =>
      cases hok
      obtain ⟨-, hpart, hfull⟩ := refill (f := ⟨w, offset⟩) h hs
      have hslice : (Refill.mk w offset).bytes.take want <+: s.data.drop offset :=
        (List.take_prefix _ _).trans (hpart.trans (List.take_prefix _ _))
      refine ⟨Nat.le_refl _, Nat.le_add_right _ _, rfl, ?_, fun _ hread => ?_⟩
      · rw [slice, Nat.sub_self, List.drop_zero]
        exact hslice
      · rw [hrefills, List.forall_mem_singleton] at hread
        rw [slice, Nat.sub_self, List.drop_zero]
        dsimp only
        rw [hfull fun hfails => hfails.elim hseek hread, List.take_take, Nat.min_eq_left hwant]

end Genuine

end Window

end Descent

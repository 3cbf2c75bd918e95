import Descent.Proofs.Stream.Shorter
import Descent.Proofs.Stream.Torn
import Descent.Proofs.Text.LongestRun

/-! Streams that are read once, from the start to the end, by a reader that never fails. On the way
the window is filled anew where it has too few bytes for the longest character and does not know
the end. So a refill comes no later than the window ends, and at most the rest of one character
before. This bounds how many there are from both sides. -/
namespace Descent

def Event.refilledFrom? : Event → Option Nat
  | refilled offset _ _ => some offset
  | _ => none

def Journal.refillOffsets {σ : Type} (j : Journal σ) : List Nat :=
  j.events.filterMap Event.refilledFrom?

section Strides

/-- Offsets from the start on, up to `last`. Each is at least `least` and at most `most` behind the
one before. -/
inductive Strides (least most : Nat) : (offsets : List Nat) → (last : Nat) → Prop where
  | start : Strides least most [0] 0
  | next {offsets : List Nat} {last offset : Nat} (h : Strides least most offsets last)
    (hleast : last + least ≤ offset) (hmost : offset ≤ last + most) :
    Strides least most (offsets ++ [offset]) offset

namespace Strides

variable {least most last stop : Nat} {offsets : List Nat}

theorem length_mul_le (h : Strides least most offsets last) :
    offsets.length * least ≤ last + least := by
  induction h with
  | start => simp
  | next _ hleast _ ih =>
    rw [List.length_append, List.length_singleton, Nat.succ_mul]
    omega

theorem le_length_mul (h : Strides least most offsets last) :
    last + most ≤ offsets.length * most := by
  induction h with
  | start => simp
  | next _ _ hmost ih =>
    rw [List.length_append, List.length_singleton, Nat.succ_mul]
    omega

theorem le_last (h : Strides least most offsets last) : ∀ offset ∈ offsets, offset ≤ last := by
  induction h with
  | start => simp
  | next _ hleast _ ih =>
    rw [List.forall_mem_append, List.forall_mem_singleton]
    exact ⟨fun offset hmem => by have := ih offset hmem; omega, Nat.le_refl _⟩

theorem pairwise_lt (h : Strides least most offsets last) (hpos : 0 < least) :
    offsets.Pairwise (· < ·) := by
  induction h with
  | start => exact List.pairwise_singleton _ _
  | next h hleast _ ih =>
    refine List.pairwise_append.2 ⟨ih, List.pairwise_singleton _ _, fun a ha b hb => ?_⟩
    obtain rfl := List.mem_singleton.1 hb
    have := h.le_last a ha
    omega

/-- There are no more offsets than the least strides give. -/
theorem length_le_div (h : Strides least most offsets last) (hpos : 0 < least)
    (hlast : last ≤ stop) : offsets.length ≤ stop / least + 1 := by
  have hmul := h.length_mul_le
  have hstrides : offsets.length - 1 ≤ stop / least := by
    rw [Nat.le_div_iff_mul_le hpos, Nat.sub_one_mul]
    omega
  omega

/-- There are no fewer than it takes to come near the end with the greatest strides. -/
theorem div_lt_length (h : Strides least most offsets last) (hstop : stop < last + most) :
    stop / most < offsets.length :=
  Nat.div_lt_of_lt_mul (Nat.mul_comm _ _ ▸ Nat.lt_of_lt_of_le hstop h.le_length_mul)

end Strides

end Strides

namespace Window

variable {s : Script} {size want offset : Nat} {encoding : Encoding} {w : Window}

/-- A window of the given size with all data from its base on that it has room for. It knows that
the input ends with it unless it is full. -/
structure Loaded (s : Script) (size : Nat) (w : Window) : Prop where
  script : w.reader.script = s
  capacity : w.capacity = size
  base : w.base ≤ s.data.length
  bytes : w.bytes = (s.data.drop w.base).take size
  exhausted : w.exhausted = decide (w.bytes.length < size)

theorem Loaded.faithful (h : w.Loaded s size) (hsize : 4 ≤ size) : w.Faithful s := by
  refine ⟨h.script, h.capacity ▸ hsize, h.bytes ▸ List.take_prefix _ _, fun hexhausted => ?_⟩
  rw [h.exhausted, h.bytes, decide_eq_true_eq, List.length_take] at hexhausted
  rw [h.bytes, List.take_of_length_le (by omega)]

/-- Within its bytes a loaded window has what is asked for, and everywhere if it has come to the end
of the data. -/
theorem Loaded.covers_iff (h : w.Loaded s size) (hbase : w.base ≤ offset)
    (hoffset : offset ≤ s.data.length) : w.covers offset want = true ↔
      offset + want ≤ w.base + size ∨ s.data.length < w.base + size := by
  have hlength : w.bytes.length = min size (s.data.length - w.base) := by
    rw [h.bytes, List.length_take, List.length_drop]
  have hwithin := h.base
  rw [Window.covers_iff, h.exhausted, decide_eq_true_eq, stop, hlength]
  omega

/-- A look at what the window has leaves it as it is. -/
theorem look_of_covers (h : w.covers offset encoding.longest = true) :
    (w.look encoding offset).2 = w ∧ w.lookEvents encoding offset = [] := by
  rw [look, lookEvents, charAt, bytesAt, if_pos h]
  exact ⟨rfl, rfl⟩

/-- A look at anything else loads the window from there on, and reports this. -/
theorem look_of_not_covers (hscript : w.reader.script = s) (hs : s.NeverFails)
    (hoffset : offset ≤ s.data.length) (h : ¬w.covers offset encoding.longest = true) :
    (w.look encoding offset).2.Loaded s w.capacity ∧ (w.look encoding offset).2.base = offset ∧
      (w.look encoding offset).2.refills = w.refills + 1 ∧
      (w.lookEvents encoding offset).filterMap Event.refilledFrom? = [offset] := by
  subst hscript
  obtain ⟨bytes, last, hbytes, hlast, hfill⟩ := w.fill_of_neverFails hs offset
  rw [look, lookEvents, charAt, bytesAt, if_neg h, hfill]
  exact ⟨⟨hlast, rfl, hoffset, hbytes, rfl⟩, rfl, rfl, rfl⟩

end Window

namespace WindowCursor

variable {s : Script} {size : Nat} {encoding : Encoding} {c : WindowCursor} {j : Journal Window}

/-- A cursor that has come from the start of a stream in one pass, and what is known then of the
window and its refills. -/
structure OnePass (s : Script) (size : Nat) (encoding : Encoding) (c : WindowCursor)
    (j : Journal Window) : Prop where
  encoded : c.encoding = encoding
  shows : c.Shows s.data
  window : j.source.Loaded s size
  covers : j.source.covers c.position.offset encoding.longest = true
  refills : j.refillOffsets.length = j.source.refills
  strides : Strides (size + 1 - encoding.longest) size j.refillOffsets j.source.base

theorem OnePass.base_le (h : OnePass s size encoding c j) :
    j.source.base ≤ c.position.offset :=
  (Window.covers_iff.1 h.covers).1

/-- What the window covers in front of the cursor. -/
theorem OnePass.reach (h : OnePass s size encoding c j) :
    c.position.offset + encoding.longest ≤ j.source.base + size ∨
      s.data.length < j.source.base + size :=
  (h.window.covers_iff h.base_le h.shows.offset).1 h.covers

/-- An opened stream is at the start of a pass. Its window has been filled once. -/
theorem OnePass.opened (hs : s.NeverFails) (hsize : leastWindow ≤ size) (encoding : Encoding)
    (rule : Position → Char → Position) :
    ∃ c j, ofReader (.ofScript s) size encoding rule = .ok (c, j) ∧ OnePass s size encoding c j ∧
      j.source.refills = 1 := by
  have hfresh := Window.faithful_ofReader s hsize
  have hlongest : encoding.longest ≤ size := Nat.le_trans encoding.longest_le hsize
  have hpos := encoding.longest_pos
  have hempty : ¬(Window.ofReader (.ofScript s) size).covers 0 encoding.longest = true := by
    rw [Window.covers_iff]
    rintro ⟨-, hstop | ⟨⟨⟩, -⟩⟩
    change 0 + encoding.longest ≤ 0 at hstop
    omega
  obtain ⟨hloaded, hbase, hrefills, hoffsets⟩ :=
    Window.look_of_not_covers hfresh.script hs (Nat.zero_le _) hempty
  refine ⟨_, _, ofReader_eq_look rule hsize (Window.charAt_eq hfresh hs encoding 0).1,
    ⟨rfl, ⟨Nat.zero_le _, (look_eq encoding hfresh hs 0).1⟩, hloaded, ?_, ?_, ?_⟩, hrefills⟩
  · refine (hloaded.covers_iff (Nat.le_of_eq hbase) (Nat.zero_le _)).2 (.inl ?_)
    change 0 + encoding.longest ≤ _ + size
    omega
  · rw [Journal.refillOffsets, hoffsets, hrefills]
    rfl
  · rw [Journal.refillOffsets, hoffsets, hbase]
    exact .start

/-- To move on is to go on with the pass. If the window is filled anew, the new base is behind the
old one by no more than the window is long, as the character that was seen lay within the window,
and by no less than the longest character allows. -/
theorem OnePass.advance (h : OnePass s size encoding c j) (hs : s.NeverFails)
    (hsize : leastWindow ≤ size) {ch : Char} {n : Nat} (hahead : c.ahead = some (ch, n)) :
    ∃ d k, (advance c : Run Window WindowCursor) j = .ok (d, k) ∧ OnePass s size encoding d k ∧
      d.position.offset = c.position.offset + n ∧ 0 < n := by
  obtain rfl := h.encoded
  have hlongest : c.encoding.longest ≤ size := Nat.le_trans c.encoding.longest_le hsize
  have hdecode := h.shows.ahead.symm.trans hahead
  have hpos := (Encoding.size_of_decode hdecode).1
  have hlong := Encoding.size_le_longest hdecode
  have hoffset := h.shows.offset_add_size_le hahead
  have hshows := (look_eq c.encoding (h.window.faithful hsize) hs (c.position.offset + n)).1
  have hbase : j.source.base ≤ c.position.offset + n := Nat.le_add_right_of_le h.base_le
  have hreach := h.reach
  refine ⟨_, _, advance_eq_look hahead j, ?_, rfl, hpos⟩
  -- Either the window stays and with it the strides, or its new base is one stride on.
  by_cases hcovers : j.source.covers (c.position.offset + n) c.encoding.longest = true
  · obtain ⟨hwindow, hevents⟩ := Window.look_of_covers hcovers
    rw [hwindow, hevents, List.append_nil]
    exact ⟨rfl, ⟨hoffset, hshows⟩, h.window, hcovers, h.refills, h.strides⟩
  · obtain ⟨hloaded, hplace, hrefills, hoffsets⟩ :=
      Window.look_of_not_covers h.window.script hs hoffset hcovers
    rw [h.window.capacity] at hloaded
    rw [h.window.covers_iff hbase hoffset] at hcovers
    refine ⟨rfl, ⟨hoffset, hshows⟩, hloaded, ?_, ?_, ?_⟩
    · refine (hloaded.covers_iff (Nat.le_of_eq hplace) hoffset).2 (.inl ?_)
      omega
    · rw [Journal.refillOffsets, List.filterMap_append, hoffsets, hrefills, List.length_append,
        ← h.refills]
      rfl
    · rw [Journal.refillOffsets, List.filterMap_append, hoffsets, hplace]
      exact h.strides.next (by omega) (by omega)

/-- A pass comes to the end, as each character has at least one byte. -/
theorem OnePass.drain (h : OnePass s size encoding c j) (hs : s.NeverFails)
    (hsize : leastWindow ≤ size) {bound : Nat}
    (hbound : s.data.length < c.position.offset + bound) :
    ∃ passed last k, (Cursor.drain bound c : Run Window (List (Char × Position) × WindowCursor)) j =
      .ok ((passed, last), k) ∧ OnePass s size encoding last k ∧ last.ahead = none := by
  induction bound generalizing c j with
  | zero => exact absurd h.shows.offset (Nat.not_le.2 hbound)
  | succ bound ih =>
    cases hahead : c.ahead with
    | none =>
      exact ⟨[], c, j, Cursor.drain_of_none (current_eq_none_iff.2 hahead) bound, h, hahead⟩
    | some token =>
      obtain ⟨ch, n⟩ := token
      obtain ⟨d, k, hadvance, hpass, hoffset, hpos⟩ := h.advance hs hsize hahead
      obtain ⟨passed, last, l, hdrain, hlast, hnone⟩ := ih hpass (by omega)
      have hsteps : Cursor.Steps c j ch d k := ⟨congrArg (Option.map (·.1)) hahead, hadvance⟩
      refine ⟨(ch, Cursor.position d) :: passed, last, l, ?_, hlast, hnone⟩
      rw [Cursor.drain_of_steps hsteps]
      exact Run.bind_of_ok hdrain

/-- A cursor that sees nothing is at the end of the data. -/
theorem OnePass.offset_eq (h : OnePass s size encoding c j) (hnone : c.ahead = none) :
    c.position.offset = s.data.length := by
  refine Nat.le_antisymm h.shows.offset (List.drop_eq_nil_iff.1 ?_)
  by_contra hne
  exact Encoding.decode_ne_none hne (h.shows.ahead.symm.trans hnone)

/-- At the end the window goes beyond the data. -/
theorem OnePass.length_lt (h : OnePass s size encoding c j) (hnone : c.ahead = none) :
    s.data.length < j.source.base + size := by
  have hreach := h.reach
  have hpos := encoding.longest_pos
  rw [h.offset_eq hnone] at hreach
  omega

/-- The refills of a pass, by the bytes of the data and the room of the window. -/
theorem OnePass.refills_bounds (h : OnePass s size encoding c j) (hsize : leastWindow ≤ size)
    (hnone : c.ahead = none) : s.data.length / size + 1 ≤ j.source.refills ∧
      j.source.refills ≤ s.data.length / (size + 1 - encoding.longest) + 1 := by
  have hlongest : encoding.longest ≤ size := Nat.le_trans encoding.longest_le hsize
  rw [← h.refills]
  exact ⟨h.strides.div_lt_length (h.length_lt hnone),
    h.strides.length_le_div (by omega) h.window.base⟩

/-- Reading forward refills as rarely as the window allows. A stream whose reader never fails is
opened with one refill, and it can be drained to the end of the data. Then the window has been
filled `n / w + 1` times in Latin 1, for `n` bytes and room for `w`, and in UTF-8 no fewer times
but at most `n / (w - 3) + 1` times. The refills are one behind the other, and none is behind the
end of the data. -/
theorem single_pass_refills (hs : s.NeverFails) (hsize : leastWindow ≤ size)
    (encoding : Encoding) (rule : Position → Char → Position) :
    ∃ c j, ofReader (.ofScript s) size encoding rule = .ok (c, j) ∧ j.source.refills = 1 ∧
      ∀ bound, s.data.length < bound → ∃ passed last k,
        (Cursor.drain bound c : Run Window (List (Char × Position) × WindowCursor)) j =
          .ok ((passed, last), k) ∧
        Cursor.current last = none ∧ last.position.offset = s.data.length ∧
        (encoding = .latin1 → k.source.refills = s.data.length / size + 1) ∧
        (encoding = .utf8 → s.data.length / size + 1 ≤ k.source.refills ∧
          k.source.refills ≤ s.data.length / (size - 3) + 1) ∧
        k.refillOffsets.length = k.source.refills ∧ k.refillOffsets.Pairwise (· < ·) ∧
        ∀ offset ∈ k.refillOffsets, offset ≤ s.data.length := by
  obtain ⟨c, j, hopen, hpass, hone⟩ := OnePass.opened hs hsize encoding rule
  refine ⟨c, j, hopen, hone, fun bound hbound => ?_⟩
  obtain ⟨passed, last, k, hdrain, hlast, hnone⟩ :=
    hpass.drain hs hsize (Nat.lt_of_lt_of_le hbound (Nat.le_add_left _ _))
  have hbounds := hlast.refills_bounds hsize hnone
  have hlongest : encoding.longest ≤ size := Nat.le_trans encoding.longest_le hsize
  refine ⟨passed, last, k, hdrain, current_eq_none_iff.2 hnone, hlast.offset_eq hnone, ?_, ?_,
    hlast.refills, hlast.strides.pairwise_lt (by omega), fun offset hoffset => ?_⟩
  · rintro rfl
    exact Nat.le_antisymm hbounds.2 hbounds.1
  · rintro rfl
    exact hbounds
  · exact Nat.le_trans (hlast.strides.le_last offset hoffset) hlast.window.base

/-- The bytes of `héllo ✓`, read three at a time. The second read is interrupted. -/
def greeting : Script :=
  ⟨[0x68, 0xC3, 0xA9, 0x6C, 0x6C, 0x6F, 0x20, 0xE2, 0x9C, 0x93], some 3, none, [], [], [2],
    "unreachable"⟩

/-- Ten bytes through a window of four take three refills in Latin 1. Through a window of six
they take two to four in UTF-8. -/
theorem single_pass_refills_greeting :
    greeting.NeverFails ∧ leastWindow ≤ 4 ∧ leastWindow ≤ 6 ∧
      (∃ c j passed last k,
        ofReader (.ofScript greeting) 4 .latin1 (Position.nextChar 4) = .ok (c, j) ∧
        (Cursor.drain 11 c : Run Window (List (Char × Position) × WindowCursor)) j =
          .ok ((passed, last), k) ∧
        k.source.refills = 3) ∧
      ∃ c j passed last k,
        ofReader (.ofScript greeting) 6 .utf8 (Position.nextChar 4) = .ok (c, j) ∧
        (Cursor.drain 11 c : Run Window (List (Char × Position) × WindowCursor)) j =
          .ok ((passed, last), k) ∧
        2 ≤ k.source.refills ∧ k.source.refills ≤ 4 := by
  have hs : greeting.NeverFails := by
    refine ⟨rfl, rfl, rfl, ?_⟩
    rintro n ⟨⟩
    decide
  have hbound : greeting.data.length < 11 := by decide
  have hfour : leastWindow ≤ 4 := by decide
  have hsix : leastWindow ≤ 6 := by decide
  refine ⟨hs, hfour, hsix, ?_, ?_⟩
  · obtain ⟨c, j, hopen, -, hpass⟩ := single_pass_refills hs hfour .latin1 (Position.nextChar 4)
    obtain ⟨passed, last, k, hdrain, -, -, hlatin1, -⟩ := hpass 11 hbound
    exact ⟨c, j, passed, last, k, hopen, hdrain, hlatin1 rfl⟩
  · obtain ⟨c, j, hopen, -, hpass⟩ := single_pass_refills hs hsix .utf8 (Position.nextChar 4)
    obtain ⟨passed, last, k, hdrain, -, -, -, hutf8, -⟩ := hpass 11 hbound
    exact ⟨c, j, passed, last, k, hopen, hdrain, hutf8 rfl⟩

end WindowCursor

end Descent

import Descent.Proofs.Stream.Chars
import Descent.Proofs.Stream.Reads

/-! Windows over readers that never fail. However short the reads and wherever they are
interrupted, a fill has all bytes that fit, so a window is a faithful part of the data and every
look at an offset shows the bytes that the data have there. -/
namespace Descent

variable {room want offset : Nat} {data : List UInt8}

/-- No read and no seek fails, and a read gives at least one byte unless the data have ended. Reads
may be interrupted. -/
structure Script.NeverFails (s : Script) : Prop where
  failAt : s.failAt = none
  failReads : s.failReads = []
  failSeeks : s.failSeeks = []
  chunk : ∀ n, s.chunk = some n → 0 < n

namespace Reader

variable {r : Reader}

theorem not_isBroken (h : r.script.NeverFails) : r.isBroken = false := by
  rw [isBroken, h.failAt]

theorem outcome_eq (h : r.script.NeverFails) :
    r.outcome room = .interrupted ∨ r.outcome room = .given (r.available room) := by
  rw [outcome]
  split
  · exact .inl rfl
  · rw [h.failReads, not_isBroken h]
    exact .inr rfl

theorem failure_readUpTo (r : Reader) (room : Nat) (h : r.script.NeverFails) :
    (r.readUpTo room).2.1 = none := by
  fun_induction readUpTo r room with
  | case1 r => rfl
  | case2 r room hroom hout ih => exact ih h
  | case3 r room hroom message hout =>
    rcases outcome_eq h with hi | hg
    · cases hi.symm.trans hout
    · cases hg.symm.trans hout
  | case4 r room hroom hout => rfl
  | case5 r room hroom b read hout more failure last hlast ih =>
    rw [hlast] at ih
    exact ih h

/-- Reads that never fail go on until there are `room` bytes or the data end. -/
theorem readUpTo_eq (r : Reader) (room : Nat) (h : r.script.NeverFails) :
    ∃ last, r.readUpTo room = ((r.script.data.drop r.place).take room, none, last) ∧
      last.script = r.script := by
  obtain ⟨bytes, failure, last, hread, hscript, -, hfull⟩ := r.readUpTo_part room h.chunk
  obtain rfl : failure = none := by
    have hnone := failure_readUpTo r room h
    rwa [hread] at hnone
  exact ⟨last, by rw [hread, hfull rfl], hscript⟩

end Reader

namespace Window

/-- A window on the data of a reader: it shows what the data have there, and ends before them only
when it is full. It has room for every character. -/
structure Faithful (s : Script) (w : Window) : Prop where
  script : w.reader.script = s
  capacity : 4 ≤ w.capacity
  bytes : w.bytes <+: s.data.drop w.base
  exhausted : w.exhausted = true → w.bytes = s.data.drop w.base

variable {s : Script} {w : Window}

theorem faithful_ofReader (s : Script) {capacity : Nat} (h : 4 ≤ capacity) :
    (ofReader (.ofScript s) capacity).Faithful s :=
  ⟨rfl, h, List.nil_prefix, nofun⟩

/-- What the window covers it shows as the data have it. -/
theorem slice_eq (h : w.Faithful s) (hc : w.covers offset want = true) :
    w.slice offset want = (s.data.drop offset).take want := by
  unfold covers at hc
  simp only [Bool.and_eq_true, Bool.or_eq_true, decide_eq_true_eq] at hc
  obtain ⟨hbase, hc⟩ := hc
  have hoffset : s.data.drop offset = (s.data.drop w.base).drop (offset - w.base) := by
    rw [List.drop_drop, Nat.add_sub_cancel' hbase]
  rw [slice, hoffset]
  rcases hc with hstop | ⟨hexhausted, _⟩
  · obtain ⟨more, hmore⟩ := h.bytes
    have hlength : offset - w.base + want ≤ w.bytes.length := by
      unfold stop at hstop
      omega
    rw [← hmore, List.drop_append_of_le_length (by omega),
      List.take_append_of_le_length (by rw [List.length_drop]; omega)]
  · rw [h.exhausted hexhausted]

theorem fill_of_read {bytes : List UInt8} {reader last : Reader}
    (hseek : w.reader.seek offset = (.ok (), reader))
    (hread : reader.readUpTo w.capacity = (bytes, none, last)) :
    w.fill offset = ⟨.ok (), [.refilled offset bytes.length (w.refills + 1)],
      ⟨last, w.capacity, offset, bytes, bytes.length < w.capacity, w.refills + 1, w.error⟩⟩ := by
  rw [fill, hseek]
  dsimp only
  rw [hread]
  cases bytes <;> rfl

/-- A fill reads the data from its offset on, up to what the window has room for. -/
theorem fill_of_neverFails (hs : w.reader.script.NeverFails) (offset : Nat) :
    ∃ bytes last, bytes = (w.reader.script.data.drop offset).take w.capacity ∧
      last.script = w.reader.script ∧
      w.fill offset = ⟨.ok (), [.refilled offset bytes.length (w.refills + 1)],
        ⟨last, w.capacity, offset, bytes, bytes.length < w.capacity, w.refills + 1, w.error⟩⟩ := by
  have hseek : w.reader.seek offset =
      (.ok (), ⟨w.reader.script, offset, w.reader.reads, w.reader.seeks + 1⟩) := by
    rw [Reader.seek]
    simp [hs.failSeeks]
  obtain ⟨last, hread, hlast⟩ := Reader.readUpTo_eq
    ⟨w.reader.script, offset, w.reader.reads, w.reader.seeks + 1⟩ w.capacity hs
  exact ⟨_, last, rfl, hlast, fill_of_read hseek hread⟩

/-- A fill has the bytes from its offset on. -/
theorem fill_eq (h : w.Faithful s) (hs : s.NeverFails) (hw : want ≤ w.capacity) :
    (w.fill offset).result = .ok () ∧ (w.fill offset).window.Faithful s ∧
      (w.fill offset).window.covers offset want = true := by
  obtain rfl : w.reader.script = s := h.script
  obtain ⟨_, last, rfl, hlast, hfill⟩ := w.fill_of_neverFails hs offset
  rw [hfill]
  refine ⟨rfl, ⟨hlast, h.capacity, List.take_prefix _ _, ?_⟩, ?_⟩
  · intro hshort
    simp only [decide_eq_true_eq, List.length_take, List.length_drop] at hshort
    exact List.take_of_length_le (by rw [List.length_drop]; omega)
  · simp only [covers, stop, List.length_take, List.length_drop, Bool.and_eq_true,
      Bool.or_eq_true, decide_eq_true_eq]
    omega

/-- Whatever the window has seen before, it serves what the data have. -/
theorem bytesAt_eq (h : w.Faithful s) (hs : s.NeverFails) (hw : want ≤ w.capacity) :
    (w.bytesAt offset want).result = .ok ((s.data.drop offset).take want) ∧
      (w.bytesAt offset want).window.Faithful s := by
  rw [bytesAt]
  by_cases hc : w.covers offset want = true
  · rw [if_pos hc, slice_eq h hc]
    exact ⟨rfl, h⟩
  · obtain ⟨hresult, hfaithful, hcovers⟩ := fill_eq h hs hw
    rw [if_neg hc]
    refine ⟨?_, hfaithful⟩
    dsimp only
    rw [hresult, slice_eq hfaithful hcovers]
    rfl

/-- A look at an offset shows the character there, as it would without a window. -/
theorem charAt_eq (h : w.Faithful s) (hs : s.NeverFails) (encoding : Encoding) (offset : Nat) :
    (w.charAt encoding offset).result = .ok (encoding.decode (s.data.drop offset)) ∧
      (w.charAt encoding offset).window.Faithful s := by
  have hlongest : encoding.longest ≤ w.capacity := Nat.le_trans encoding.longest_le h.capacity
  obtain ⟨hresult, hfaithful⟩ := bytesAt_eq h hs hlongest
  refine ⟨?_, hfaithful⟩
  rw [charAt]
  dsimp only
  rw [hresult, ← encoding.decode_take]
  rfl

end Window

end Descent

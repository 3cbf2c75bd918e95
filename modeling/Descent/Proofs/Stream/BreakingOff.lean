import Descent.Proofs.Stream.Agreement
import Descent.Proofs.Stream.Session

/-! Streams that break off. A reader that fails from some offset on shows what a reader shows whose
data end there. The failure comes up inside a refill or before its first byte, depending on where
the window happens to stand, and in either case the window keeps it once the end is seen. -/
namespace Descent

/-- Reads from offset `k` on fail, and nothing else does. Reads may be interrupted. -/
structure Script.BreaksAt (s : Script) (k : Nat) : Prop where
  failAt : s.failAt = some k
  failReads : s.failReads = []
  failSeeks : s.failSeeks = []
  gives : s.Gives

def Script.upTo (s : Script) (k : Nat) : Script :=
  { s with data := s.data.take k, failAt := none }

namespace Reader

variable {r : Reader} {room k : Nat} {read : List UInt8}

theorem isBroken_iff (h : r.script.BreaksAt k) : r.isBroken = true ↔ k ≤ r.place := by
  rw [isBroken, h.failAt]
  exact decide_eq_true_iff

/-- A read fails only where the reader breaks off. -/
theorem outcome_failed {message : String} (h : r.script.BreaksAt k)
    (hout : r.outcome room = .failed message) : k ≤ r.place ∧ message = r.script.message := by
  rw [outcome, h.failReads] at hout
  split at hout
  · cases hout
  · split at hout
    · rename_i hbroken
      exact ⟨(isBroken_iff h).1 (by simpa using hbroken), (ReadResult.failed.inj hout).symm⟩
    · cases hout

/-- A read gives bytes in front of `k`, as many as it says. -/
theorem outcome_given (h : r.script.BreaksAt k) (hout : r.outcome room = .given read) :
    r.place < k ∧ read.length ≤ room ∧
      (r.place ≤ (r.script.data.take k).length →
        r.place + read.length ≤ (r.script.data.take k).length) ∧
      read = ((r.script.data.take k).drop r.place).take read.length := by
  obtain ⟨hread, hbroken⟩ := eq_available_of_given hout
  have hplace : ¬k ≤ r.place := fun hk => by simp [(isBroken_iff h).2 hk] at hbroken
  have hroom : read.length ≤ room := hread ▸ r.length_available_le room
  have hlength : read.length ≤ (r.script.data.take k).length - r.place := by
    rw [hread, available, h.failAt, List.length_take, List.length_take, atMost]
    omega
  have htake : read = (r.script.data.drop r.place).take read.length :=
    List.prefix_iff_eq_take.1 (hread ▸ List.take_prefix _ _)
  refine ⟨by omega, hroom, fun hle => by omega, ?_⟩
  rw [List.length_take] at hlength
  rw [List.drop_take, List.take_take, Nat.min_eq_left (by omega)]
  exact htake

/-- Reads in front of `k` give the data there, and one of them fails if the data and what was asked
for go further. -/
theorem readUpTo_breaksAt (r : Reader) (room : Nat) (h : r.script.BreaksAt k)
    (hplace : r.place ≤ (r.script.data.take k).length) :
    ∃ last, r.readUpTo room = (((r.script.data.take k).drop r.place).take room,
        if k ≤ r.script.data.length ∧ k < r.place + room then some r.script.message else none,
        last) ∧
      last.script = r.script := by
  fun_induction readUpTo r room with
  | case1 r =>
    rw [List.length_take] at hplace
    exact ⟨r, by rw [if_neg (by omega), List.take_zero], rfl⟩
  | case2 r room hroom hout ih => exact ih h hplace
  | case3 r room hroom message hout =>
    obtain ⟨hk, rfl⟩ := outcome_failed h hout
    rw [List.length_take] at hplace
    have hend : (r.script.data.take k).drop r.place = [] :=
      List.drop_eq_nil_of_le (by rw [List.length_take]; omega)
    exact ⟨r.after (.failed r.script.message),
      by rw [if_pos (by omega), hend, List.take_nil], rfl⟩
  | case4 r room hroom hout =>
    have hlength := List.drop_eq_nil_iff.1 (drop_eq_nil_of_given h.gives hroom hout)
    have hk := (outcome_given h hout).1
    have hend : (r.script.data.take k).drop r.place = [] :=
      List.drop_eq_nil_of_le (by rw [List.length_take]; omega)
    exact ⟨r.after (.given []), by rw [if_neg (by omega), hend, List.take_nil], rfl⟩
  | case5 r room hroom b read hout more failure last hlast ih =>
    obtain ⟨-, hlength, hnext, hread⟩ := outcome_given h hout
    obtain ⟨last', hmore, hscript⟩ := ih h (hnext hplace)
    rw [hlast] at hmore
    cases hmore
    have hroom' : room = read.length + 1 + (room - (read.length + 1)) :=
      (Nat.add_sub_cancel' hlength).symm
    have hdata : ((r.script.data.take k).drop r.place).take room = b :: read ++
        ((r.script.data.take k).drop (r.place + (read.length + 1))).take
          (room - (read.length + 1)) := by
      conv_lhs => rw [hroom', List.take_add, List.drop_drop]
      rw [← List.length_cons (a := b), ← hread]
    refine ⟨_, ?_, hscript⟩
    rw [hdata]
    congr 2
    have hplace' : (r.after (.given (b :: read))).place + (room - (read.length + 1)) =
        r.place + room := by
      change r.place + (read.length + 1) + _ = _
      omega
    rw [hplace']
    rfl

end Reader

/-- A refill from in front of `k` has the data there, up to what the window has room for, and keeps
the failure if it comes as far as `k` before the window is full. -/
theorem Refill.eq_of_breaksAt {f : Refill} {k : Nat} (h : f.window.reader.script.BreaksAt k)
    (hoffset : f.offset ≤ (f.window.reader.script.data.take k).length) :
    ¬f.SeekFails ∧ f.reader.script = f.window.reader.script ∧
      f.bytes =
        ((f.window.reader.script.data.take k).drop f.offset).take f.window.capacity ∧
      f.failure? =
        if k ≤ f.window.reader.script.data.length ∧ k < f.offset + f.window.capacity then
          some f.window.reader.script.message
        else none := by
  have hseek : ¬f.SeekFails := by
    rintro ⟨message, hseek⟩
    rw [Reader.seek, h.failSeeks] at hseek
    cases hseek
  obtain ⟨reader, -, hplace, hscript, hrow⟩ := seek_of_not_fails hseek
  obtain ⟨last, hread, hlast⟩ :=
    reader.readUpTo_breaksAt f.window.capacity (hscript ▸ h) (by rwa [hscript, hplace])
  rw [hread, hscript, hplace] at hrow
  simp only [Prod.mk.injEq] at hrow
  obtain ⟨hbytes, hfailure, rfl⟩ := hrow
  exact ⟨hseek, hlast.trans hscript, hbytes.symm, hfailure.symm⟩

namespace Window

variable {s : Script} {k want offset : Nat} {w : Window}

/-- A window over a reader that breaks off at `k`. It could be one over the data in front. -/
structure BreaksOff (s : Script) (k : Nat) (w : Window) : Prop where
  script : w.reader.script = s
  base : w.base ≤ (s.data.take k).length
  faithful : Faithful (s.upTo k) { w with reader := .ofScript (s.upTo k) }

def TellsEnd (s : Script) (w : Window) : Prop := w.exhausted = true → w.error = some s.message

/-- On the way from one window to another nothing that has been kept is lost. -/
structure Retells (s : Script) (w v : Window) : Prop where
  tellsEnd : w.TellsEnd s → v.TellsEnd s
  error : w.error = some s.message → v.error = some s.message

theorem breaksOff_ofReader (s : Script) (k : Nat) {capacity : Nat} (h : 4 ≤ capacity) :
    (ofReader (.ofScript s) capacity).BreaksOff s k :=
  ⟨rfl, Nat.zero_le _, rfl, h, List.nil_prefix, nofun⟩

theorem tellsEnd_ofReader (s : Script) (capacity : Nat) :
    (ofReader (.ofScript s) capacity).TellsEnd s :=
  nofun

/-- What a window keeps of a failure has nothing to do with what it shows. -/
theorem Faithful.setError (h : w.Faithful s) (error : Option String) :
    Faithful s { w with error } :=
  ⟨h.script, h.capacity, h.bytes, h.exhausted⟩

namespace BreaksOff

theorem setError (h : w.BreaksOff s k) (error : Option String) :
    BreaksOff s k { w with error } :=
  ⟨h.script, h.base, h.faithful.setError error⟩

theorem slice_eq (h : w.BreaksOff s k) (hc : w.covers offset want = true) :
    w.slice offset want = ((s.data.take k).drop offset).take want :=
  Window.slice_eq h.faithful hc

/-- An exhausted window has all from its base up to `k`. -/
theorem covers_of_exhausted (h : w.BreaksOff s k) (hexhausted : w.exhausted = true)
    (hbase : w.base ≤ offset) (hoffset : offset ≤ (s.data.take k).length) :
    w.covers offset want = true := by
  have hbytes : w.bytes = (s.data.take k).drop w.base := h.faithful.exhausted hexhausted
  have hstop : w.stop = (s.data.take k).length := by
    rw [stop, hbytes, List.length_drop]
    exact Nat.add_sub_cancel' h.base
  exact covers_iff.2 ⟨hbase, .inr ⟨hexhausted, Nat.le_trans hoffset (Nat.le_of_eq hstop.symm)⟩⟩

/-- At `k` a window covers what is asked for only as the end of the input. -/
theorem exhausted_of_covers (h : w.BreaksOff s k) (hwant : 0 < want)
    (hc : w.covers k want = true) : w.exhausted = true := by
  obtain ⟨hbase, hstop | ⟨hexhausted, -⟩⟩ := covers_iff.1 hc
  · have hbytes : w.bytes <+: (s.data.take k).drop w.base := h.faithful.bytes
    have hlength := hbytes.length_le
    rw [List.length_drop, List.length_take] at hlength
    rw [stop] at hstop
    omega
  · exact hexhausted

/-- A fill at `k` fails. A fill in front of it has the data there. -/
theorem fill (h : w.BreaksOff s k) (hs : s.BreaksAt k)
    (hoffset : offset ≤ (s.data.take k).length) (hwant : want ≤ w.capacity)
    (hc : ¬w.covers offset want = true) :
    (w.fill offset).window.BreaksOff s k ∧
      (k ≤ s.data.length → Retells s w (w.fill offset).window) ∧
      (offset = k ∧ (w.fill offset).result = .error s.message ∨
        offset ≠ k ∧ (w.fill offset).result = .ok () ∧
          (w.fill offset).window.slice offset want =
            ((s.data.take k).drop offset).take want) := by
  obtain rfl := h.script
  obtain ⟨hseek, hscript, hbytes, hfailure⟩ := Refill.eq_of_breaksAt (f := ⟨w, offset⟩) hs hoffset
  have hends := (Refill.mk w offset).ends_fill
  dsimp only at hscript hbytes hfailure hends
  have hcapacity : 4 ≤ w.capacity := h.faithful.capacity
  have hlength := List.length_take (i := k) (l := w.reader.script.data)
  generalize w.fill offset = filled at hends ⊢
  cases hends with
  | unsought hfails => exact absurd hfails hseek
  | unread hsome hnil =>
    rw [hsome] at hfailure
    rw [hbytes, List.take_eq_nil_iff, List.drop_eq_nil_iff] at hnil
    split at hfailure
    · cases hfailure
      have hend : offset = k := by omega
      have hexhausted : w.exhausted = false := by
        by_contra hexhausted
        refine hc (h.covers_of_exhausted (eq_true_of_ne_false hexhausted) ?_ hoffset)
        have := h.base
        omega
      have hnever {P : Prop} (hex : w.exhausted = true) : P := nomatch hexhausted.symm.trans hex
      exact ⟨⟨hscript, h.base, rfl, hcapacity, List.nil_prefix, hnever⟩,
        fun _ => ⟨fun _ => hnever, id⟩, .inl ⟨hend, rfl⟩⟩
    · cases hfailure
  | filled _ hempty =>
    have hend : offset ≠ k := by
      rintro rfl
      rw [hbytes, hfailure, List.drop_eq_nil_of_le (by omega), List.take_nil,
        if_pos (by omega)] at hempty
      cases hempty rfl
    have hshort (hex : decide ((Refill.mk w offset).bytes.length < w.capacity) = true) :
        ((w.reader.script.data.take k).drop offset).length < w.capacity := by
      have hless := of_decide_eq_true hex
      rw [hbytes, List.length_take] at hless
      omega
    refine ⟨⟨hscript, hoffset, rfl, hcapacity, ?_, fun hex => ?_⟩,
      fun hk => ⟨fun _ hex => ?_, fun herror => ?_⟩, .inr ⟨hend, rfl, ?_⟩⟩
    · exact hbytes ▸ List.take_prefix _ _
    · exact hbytes.trans (List.take_of_length_le (Nat.le_of_lt (hshort hex)))
    · have hless := hshort hex
      rw [List.length_drop] at hless
      dsimp only
      rw [hfailure, if_pos (by omega), Option.some_or]
    · dsimp only
      rw [hfailure, herror]
      split <;> rfl
    · rw [slice, Nat.sub_self, List.drop_zero]
      dsimp only
      rw [hbytes, List.take_take, Nat.min_eq_left hwant]

/-- Bytes in front of `k` are those of the data. At `k` there are none, and unless the window knows
that the failure comes up. -/
theorem bytesAt (h : w.BreaksOff s k) (hs : s.BreaksAt k)
    (hoffset : offset ≤ (s.data.take k).length) (hwant : want ≤ w.capacity) :
    (w.bytesAt offset want).window.BreaksOff s k ∧
      (k ≤ s.data.length → Retells s w (w.bytesAt offset want).window) ∧
      ((w.bytesAt offset want).result = .error s.message ∧ offset = k ∧
          ¬w.covers offset want = true ∨
        (w.bytesAt offset want).result = .ok (((s.data.take k).drop offset).take want) ∧
          (offset = k → w.covers offset want = true)) := by
  rw [Window.bytesAt]
  dsimp only
  by_cases hc : w.covers offset want = true
  · rw [if_pos hc, h.slice_eq hc]
    exact ⟨h, fun _ => ⟨id, id⟩, .inr ⟨rfl, fun _ => hc⟩⟩
  · obtain ⟨hwindow, hretells, ⟨hend, hresult⟩ | ⟨hend, hresult, hslice⟩⟩ :=
      h.fill hs hoffset hwant hc
    · rw [if_neg hc, hresult]
      exact ⟨hwindow, hretells, .inl ⟨rfl, hend, hc⟩⟩
    · rw [if_neg hc, hresult, hslice]
      exact ⟨hwindow, hretells, .inr ⟨rfl, fun h' => absurd h' hend⟩⟩

/-- A look shows what the data in front of `k` have. When it shows the end of the input, the window
has kept why. -/
theorem look (h : w.BreaksOff s k) (hs : s.BreaksAt k) (encoding : Encoding)
    (hoffset : offset ≤ (s.data.take k).length) :
    (w.look encoding offset).1 = encoding.decode ((s.data.take k).drop offset) ∧
      (w.look encoding offset).2.BreaksOff s k ∧
      (k ≤ s.data.length → Retells s w (w.look encoding offset).2 ∧
        (w.TellsEnd s → (w.look encoding offset).1 = none →
          (w.look encoding offset).2.error = some s.message)) := by
  have hcapacity : 4 ≤ w.capacity := h.faithful.capacity
  obtain ⟨hwindow, hretells, hcases⟩ :=
    h.bytesAt hs hoffset (Nat.le_trans encoding.longest_le hcapacity)
  rw [Window.look, charAt]
  dsimp only
  obtain ⟨hresult, hend, -⟩ | ⟨hresult, hend⟩ := hcases
  · have hnil : (s.data.take k).drop offset = [] :=
      List.drop_eq_nil_of_le (hend ▸ List.length_take_le _ _)
    rw [hresult, hnil, encoding.decode_nil]
    exact ⟨rfl, hwindow.setError _, fun _ => ⟨⟨fun _ _ => rfl, fun _ => rfl⟩, fun _ _ => rfl⟩⟩
  · rw [hresult]
    refine ⟨encoding.decode_take _, hwindow, fun hk => ⟨hretells hk, fun htells hnone => ?_⟩⟩
    have hnil : (s.data.take k).drop offset = [] := by
      by_contra hne
      exact encoding.decode_ne_none hne ((encoding.decode_take _).symm.trans hnone)
    have hlength := List.drop_eq_nil_iff.1 hnil
    rw [List.length_take] at hoffset hlength
    obtain rfl : offset = k := by omega
    exact (hretells hk).error (htells (h.exhausted_of_covers encoding.longest_pos (hend rfl)))

end BreaksOff

end Window

end Descent

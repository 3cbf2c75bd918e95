import Descent.Stream.Window
import Mathlib.Data.List.Basic

/-! Rows of reads, and the refills of a window that they make. Each read of a row is kept with how
it ended, so that it can be said of a refill which of its calls failed and what had been read by
then. What a row has read is always a part of the data, and short of what was asked for only at
their end or where a read failed. -/
namespace Descent

/-- A read gives at least one byte unless the data have ended or the read fails. -/
def Script.Gives (s : Script) : Prop := ∀ n, s.chunk = some n → 0 < n

def ReadResult.failure? : ReadResult → Option String
  | failed message => some message
  | _ => none

namespace Reader

variable {r : Reader} {room : Nat} {read : List UInt8}

def readsUpTo (r : Reader) (room : Nat) : List ReadResult :=
  if room = 0 then []
  else
    match _h : r.outcome room with
    | .interrupted => .interrupted :: (r.after .interrupted).readsUpTo room
    | .failed message => [.failed message]
    | .given [] => [.given []]
    | .given (b :: read) =>
      .given (b :: read) ::
        (r.after (.given (b :: read))).readsUpTo (room - (read.length + 1))
termination_by room + r.pending
decreasing_by
  · exact Nat.add_lt_add_left (pending_after_lt (mem_interrupts_of_outcome _h) _) room
  · have := pending_after_le r (.given (b :: read))
    omega

theorem readsUpTo_eq (hroom : room ≠ 0) : r.readsUpTo room =
    match r.outcome room with
    | .interrupted => .interrupted :: (r.after .interrupted).readsUpTo room
    | .failed message => [.failed message]
    | .given [] => [.given []]
    | .given (b :: read) =>
      .given (b :: read) ::
        (r.after (.given (b :: read))).readsUpTo (room - (read.length + 1)) := by
  rw [readsUpTo, if_neg hroom]
  split <;> rename_i h <;> rw [h]

/-- What is read, the failure and the reader after all are those of the single reads. -/
theorem readUpTo_eq_reads (r : Reader) (room : Nat) :
    r.readUpTo room = ((r.readsUpTo room).flatMap ReadResult.bytes,
      (r.readsUpTo room).findSome? ReadResult.failure?, (r.readsUpTo room).foldl after r) := by
  fun_induction readUpTo r room with
  | case1 r =>
    rw [readsUpTo, if_pos rfl]
    rfl
  | case2 r room hroom hout ih =>
    rw [readsUpTo_eq hroom, hout]
    exact ih
  | case3 r room hroom message hout =>
    rw [readsUpTo_eq hroom, hout]
    rfl
  | case4 r room hroom hout =>
    rw [readsUpTo_eq hroom, hout]
    rfl
  | case5 r room hroom b read hout more failure last hlast ih =>
    rw [hlast] at ih
    rw [readsUpTo_eq hroom, hout]
    cases ih
    rfl

section Data

theorem length_available_le (r : Reader) (room : Nat) : (r.available room).length ≤ room := by
  have hmost : atMost r.script.chunk room ≤ room := by
    unfold atMost
    split <;> omega
  simp only [available, List.length_take]
  omega

theorem eq_available_of_given (h : r.outcome room = .given read) :
    read = r.available room ∧ r.isBroken = false := by
  unfold outcome at h
  split at h
  · cases h
  · split at h
    · cases h
    · rename_i hbroken
      simp only [Bool.or_eq_true, not_or, Bool.not_eq_true] at hbroken
      exact ⟨(ReadResult.given.inj h).symm, hbroken.2⟩

/-- A read that gives nothing stands at the end of the data. -/
theorem drop_eq_nil_of_given (h : r.script.Gives) (hroom : room ≠ 0)
    (hout : r.outcome room = .given []) : r.script.data.drop r.place = [] := by
  obtain ⟨hnil, hbroken⟩ := eq_available_of_given hout
  have hchunk : 0 < atMost r.script.chunk room := by
    unfold atMost
    split
    · omega
    · rename_i k hk
      exact Nat.lt_min.2 ⟨h k hk, by omega⟩
  have hlimit : r.place < r.script.data.length →
      r.place < atMost r.script.failAt r.script.data.length := by
    unfold isBroken at hbroken
    unfold atMost
    split
    · exact id
    · rename_i k hk
      rw [hk] at hbroken
      have : ¬k ≤ r.place := of_decide_eq_false hbroken
      omega
  have hlength : (r.available room).length = 0 := by rw [← hnil]; rfl
  simp only [available, List.length_take, List.length_drop] at hlength
  exact List.drop_eq_nil_of_le (by omega)

/-- A row of reads gives a part of the data, and all that was asked for, up to the end of the data,
if none of them fails. -/
theorem readUpTo_part (r : Reader) (room : Nat) (h : r.script.Gives) :
    ∃ bytes failure last, r.readUpTo room = (bytes, failure, last) ∧ last.script = r.script ∧
      bytes <+: (r.script.data.drop r.place).take room ∧
      (failure = none → bytes = (r.script.data.drop r.place).take room) := by
  fun_induction readUpTo r room with
  | case1 r => exact ⟨_, _, _, rfl, rfl, by simp, by simp⟩
  | case2 r room hroom hout ih => exact ih h
  | case3 r room hroom message hout => exact ⟨_, _, _, rfl, rfl, List.nil_prefix, nofun⟩
  | case4 r room hroom hout =>
    have hend := drop_eq_nil_of_given h hroom hout
    exact ⟨_, _, _, rfl, rfl, List.nil_prefix, fun _ => by rw [hend, List.take_nil]⟩
  | case5 r room hroom b read hout more failure last hlast ih =>
    obtain ⟨bytes, failure, last, hmore, hscript, hpart, hfull⟩ := ih h
    rw [hlast] at hmore
    cases hmore
    obtain ⟨hread, -⟩ := eq_available_of_given hout
    have hlength : read.length + 1 ≤ room := by
      have := r.length_available_le room
      rwa [← hread] at this
    have htake : b :: read = (r.script.data.drop r.place).take (read.length + 1) :=
      List.prefix_iff_eq_take.1 (hread ▸ List.take_prefix _ _)
    have hroom' : room = read.length + 1 + (room - (read.length + 1)) := by omega
    have hdata : (r.script.data.drop r.place).take room = b :: read ++
        (r.script.data.drop (r.place + (read.length + 1))).take (room - (read.length + 1)) := by
      rw [htake, ← List.drop_drop, ← List.take_add, ← hroom']
    refine ⟨_, _, _, rfl, hscript, ?_, fun hnone => ?_⟩
    · rw [hdata]
      exact (List.prefix_append_right_inj _).2 hpart
    · rw [hdata, hfull hnone]
      rfl

end Data

end Reader

end Descent

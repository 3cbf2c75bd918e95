/-! Readers of bytes that can be sent to any offset, and that may be interrupted or fail. -/
namespace Descent

/-- The bytes of a reader and how it behaves. One read gives at most `chunk` bytes. Reads and seeks
are numbered from one, and some of them are interrupted or fail; reads from `failAt` on all fail,
and none gives a byte from there. -/
structure Script where
  data : List UInt8
  chunk : Option Nat
  failAt : Option Nat
  failReads : List Nat
  failSeeks : List Nat
  interrupts : List Nat
  message : String
deriving DecidableEq, Repr

/-- A size that neither the characters of the data exceed nor the number of the last read or seek
that goes wrong. -/
def Script.extent (s : Script) : Nat :=
  s.data.length + (s.failReads ++ s.failSeeks ++ s.interrupts).foldl Nat.max 0

structure Reader where
  script : Script
  place : Nat
  reads : Nat
  seeks : Nat
deriving DecidableEq, Repr

/-- How one read ends. No bytes mean the end of the data. -/
inductive ReadResult where
  | interrupted
  | failed (message : String)
  | given (read : List UInt8)
deriving DecidableEq, Repr

def ReadResult.bytes : ReadResult → List UInt8
  | interrupted => []
  | failed _ => []
  | given read => read

def atMost (limit : Option Nat) (n : Nat) : Nat :=
  match limit with
  | none => n
  | some k => min k n

namespace Reader

def ofScript (script : Script) : Reader := ⟨script, 0, 0, 0⟩

/-- Moves to an offset. A seek that fails moves nowhere. -/
def seek (r : Reader) (offset : Nat) : Except String Unit × Reader :=
  let r := { r with seeks := r.seeks + 1 }
  if r.script.failSeeks.contains r.seeks then (.error ("seek: " ++ r.script.message), r)
  else (.ok (), { r with place := offset })

def available (r : Reader) (room : Nat) : List UInt8 :=
  let stop := min (atMost r.script.failAt r.script.data.length)
    (r.place + atMost r.script.chunk room)
  (r.script.data.drop r.place).take (stop - r.place)

def isBroken (r : Reader) : Bool :=
  match r.script.failAt with
  | none => false
  | some k => k ≤ r.place

def outcome (r : Reader) (room : Nat) : ReadResult :=
  if r.script.interrupts.contains (r.reads + 1) then .interrupted
  else if r.script.failReads.contains (r.reads + 1) || r.isBroken then .failed r.script.message
  else .given (r.available room)

def after (r : Reader) (result : ReadResult) : Reader :=
  { r with place := r.place + result.bytes.length, reads := r.reads + 1 }

def pending (r : Reader) : Nat := r.script.interrupts.countP (r.reads < ·)

theorem countP_lt_succ_le (ks : List Nat) (n : Nat) :
    ks.countP (n + 1 < ·) ≤ ks.countP (n < ·) :=
  List.countP_mono_left fun _ _ h => by
    have := of_decide_eq_true h
    exact decide_eq_true (by omega)

theorem countP_lt_succ_lt {ks : List Nat} {n : Nat} (h : n + 1 ∈ ks) :
    ks.countP (n + 1 < ·) < ks.countP (n < ·) := by
  induction ks with
  | nil => cases h
  | cons k ks ih =>
    have hle := countP_lt_succ_le ks n
    rcases List.mem_cons.1 h with rfl | h
    · simpa using Nat.lt_succ_of_le hle
    · have hlt := ih h
      simp only [List.countP_cons, decide_eq_true_eq]
      split <;> split <;> omega

theorem pending_after_le (r : Reader) (result : ReadResult) :
    (r.after result).pending ≤ r.pending :=
  countP_lt_succ_le _ _

theorem pending_after_lt {r : Reader} (h : r.reads + 1 ∈ r.script.interrupts)
    (result : ReadResult) : (r.after result).pending < r.pending :=
  countP_lt_succ_lt h

theorem mem_interrupts_of_outcome {r : Reader} {room : Nat} (h : r.outcome room = .interrupted) :
    r.reads + 1 ∈ r.script.interrupts := by
  unfold outcome at h
  split at h
  · next hc => exact List.contains_iff_mem.1 hc
  · split at h <;> cases h

/-- Reads until `room` bytes are there, the data end or a read fails: the bytes and the failure.
An interrupted read is tried again. -/
def readUpTo (r : Reader) (room : Nat) : List UInt8 × Option String × Reader :=
  if room = 0 then ([], none, r)
  else
    match _h : r.outcome room with
    | .interrupted => (r.after .interrupted).readUpTo room
    | .failed message => ([], some message, r.after (.failed message))
    | .given [] => ([], none, r.after (.given []))
    | .given (b :: read) =>
      let (more, failure, last) :=
        (r.after (.given (b :: read))).readUpTo (room - (read.length + 1))
      (b :: read ++ more, failure, last)
termination_by room + r.pending
decreasing_by
  · exact Nat.add_lt_add_left (pending_after_lt (mem_interrupts_of_outcome _h) _) room
  · have := pending_after_le r (.given (b :: read))
    omega

end Reader

end Descent

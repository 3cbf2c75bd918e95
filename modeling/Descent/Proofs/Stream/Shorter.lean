import Descent.Proofs.Stream.BreakingOff

/-! A stream that breaks off is a shorter stream that tells why it ends. The same moves made with
both streams lead to the same cursors, and when one of them has come to the end of the input the
failure can be taken. -/
namespace Descent

namespace WindowCursor

structure Shows (data : List UInt8) (c : WindowCursor) : Prop where
  offset : c.position.offset ≤ data.length
  ahead : c.ahead = c.encoding.decode (data.drop c.position.offset)

/-- What a cursor sees lies within the data. -/
theorem Shows.offset_add_size_le {data : List UInt8} {c : WindowCursor} {ch : Char} {size : Nat}
    (h : c.Shows data) (hahead : c.ahead = some (ch, size)) :
    c.position.offset + size ≤ data.length := by
  have hdecoded := (Encoding.size_of_decode (h.ahead.symm.trans hahead)).2
  rw [List.length_drop] at hdecoded
  have := h.offset
  omega

theorem current_eq_none_iff {c : WindowCursor} : Cursor.current c = none ↔ c.ahead = none :=
  Option.map_eq_none_iff

/-- A stream that can serve its first bytes is opened with a cursor that sees what is there. -/
theorem ofReader_eq_look {reader : Reader} {capacity : Nat} {encoding : Encoding}
    (rule : Position → Char → Position) {ahead : Option (Char × Nat)}
    (hcapacity : leastWindow ≤ capacity)
    (h : ((Window.ofReader reader capacity).charAt encoding 0).result = .ok ahead) :
    ofReader reader capacity encoding rule =
      .ok (⟨((Window.ofReader reader capacity).look encoding 0).1, .start, encoding, rule⟩,
        ⟨((Window.ofReader reader capacity).look encoding 0).2,
          (Window.ofReader reader capacity).lookEvents encoding 0, []⟩) := by
  rw [ofReader, if_neg (Nat.not_lt.2 hcapacity), Window.look, Window.lookEvents]
  dsimp only
  rw [h]

theorem ofReader_of_charAt {reader : Reader} {capacity : Nat} {encoding : Encoding}
    (rule : Position → Char → Position) {ahead : Option (Char × Nat)}
    (hcapacity : leastWindow ≤ capacity)
    (h : ((Window.ofReader reader capacity).charAt encoding 0).result = .ok ahead) :
    ∃ events, ofReader reader capacity encoding rule =
      .ok (⟨((Window.ofReader reader capacity).look encoding 0).1, .start, encoding, rule⟩,
        ⟨((Window.ofReader reader capacity).look encoding 0).2, events, []⟩) :=
  ⟨_, ofReader_eq_look rule hcapacity h⟩

/-- What may be done with a stream: one of the cursors that have been come to is moved on, or the
failure that the window keeps is taken. -/
inductive Move where
  | moveOn (saved : Nat)
  | takeError
deriving DecidableEq, Repr

/-- A move adds a cursor to those that have been come to. There is no moving on from the end of the
input. -/
def Move.make (saved : List WindowCursor) : Move → Run Window (List WindowCursor)
  | moveOn i =>
    match saved[i]? with
    | some c =>
      if (Cursor.current c).isSome then do
        let d ← advance c
        return saved ++ [d]
      else return saved
    | none => return saved
  | takeError => do
    let _ ← WindowCursor.takeError
    return saved

def play (moves : List Move) (saved : List WindowCursor) : Run Window (List WindowCursor) :=
  moves.foldlM Move.make saved

section Moves

variable {s t : Script} {k : Nat} {saved : List WindowCursor} {j j' : Journal Window}

/-- Two streams that have come to the same cursors, one that breaks off at `k` and one that has the
data in front of `k`. -/
structure Lockstep (s t : Script) (k : Nat) (saved : List WindowCursor) (w v : Window) :
    Prop where
  broken : w.BreaksOff s k
  short : v.Faithful t
  cursors : ∀ c ∈ saved, c.Shows (s.data.take k)

structure Told (s : Script) (saved : List WindowCursor) (w : Window) : Prop where
  window : w.TellsEnd s
  cursors : ∀ c ∈ saved, c.ahead = none → w.error = some s.message

/-- Both streams move a cursor on to the same cursor. -/
theorem Lockstep.advance (h : Lockstep s t k saved j.source j'.source) (hs : s.BreaksAt k)
    (ht : t.NeverFails) (hdata : t.data = s.data.take k) {c : WindowCursor} (hc : c ∈ saved)
    (hsome : (Cursor.current c).isSome) :
    ∃ d l l', (advance c : Run Window WindowCursor) j = .ok (d, l) ∧
      (advance c : Run Window WindowCursor) j' = .ok (d, l') ∧
      Lockstep s t k (saved ++ [d]) l.source l'.source ∧
      (k ≤ s.data.length → Told s saved j.source → Told s (saved ++ [d]) l.source) := by
  obtain ⟨⟨ch, size⟩, hahead⟩ : ∃ next, c.ahead = some next := by
    rwa [← Option.isSome_iff_exists, ← Option.isSome_map]
  have hoffset := (h.cursors c hc).offset_add_size_le hahead
  have hbroken := advance_eq_look hahead j
  have hshort := advance_eq_look hahead j'
  obtain ⟨hseen, hwindow, htells⟩ := h.broken.look hs c.encoding hoffset
  obtain ⟨hseen', hwindow'⟩ :=
    look_eq c.encoding h.short ht (c.position.offset + size)
  rw [hdata] at hseen'
  rw [hseen'] at hshort
  rw [hseen] at hbroken htells
  refine ⟨_, _, _, hbroken, hshort, ⟨hwindow, hwindow', ?_⟩, fun hk htold => ⟨?_, ?_⟩⟩
  · rw [List.forall_mem_append, List.forall_mem_singleton]
    exact ⟨h.cursors, hoffset, rfl⟩
  · exact (htells hk).1.tellsEnd htold.window
  · rw [List.forall_mem_append, List.forall_mem_singleton]
    exact ⟨fun d hd hnone => (htells hk).1.error (htold.cursors d hd hnone),
      (htells hk).2 htold.window⟩

/-- A move made with both streams leads to the same cursors. A failure that has been kept stays
unless it is taken. -/
theorem Lockstep.make (h : Lockstep s t k saved j.source j'.source) (hs : s.BreaksAt k)
    (ht : t.NeverFails) (hdata : t.data = s.data.take k) (move : Move) :
    ∃ saved' l l', move.make saved j = .ok (saved', l) ∧ move.make saved j' = .ok (saved', l') ∧
      Lockstep s t k saved' l.source l'.source ∧
      (k ≤ s.data.length → move ≠ .takeError → Told s saved j.source →
        Told s saved' l.source) := by
  cases move with
  | takeError =>
    exact ⟨saved, _, _, rfl, rfl, ⟨h.broken.setError _, h.short.setError _, h.cursors⟩,
      fun _ hne => absurd rfl hne⟩
  | moveOn i =>
    rw [Move.make]
    cases hget : saved[i]? with
    | none => exact ⟨saved, j, j', rfl, rfl, h, fun _ _ => id⟩
    | some c =>
      dsimp only
      split
      · rename_i hsome
        obtain ⟨d, l, l', hbroken, hshort, hlockstep, htold⟩ :=
          h.advance hs ht hdata (List.mem_of_getElem? hget) hsome
        exact ⟨saved ++ [d], l, l', Run.bind_of_ok hbroken, Run.bind_of_ok hshort, hlockstep,
          fun hk _ => htold hk⟩
      · exact ⟨saved, j, j', rfl, rfl, h, fun _ _ => id⟩

/-- So do moves made in turn. -/
theorem Lockstep.play (j j' : Journal Window) (h : Lockstep s t k saved j.source j'.source)
    (hs : s.BreaksAt k) (ht : t.NeverFails) (hdata : t.data = s.data.take k)
    (moves : List Move) :
    ∃ saved' l l', WindowCursor.play moves saved j = .ok (saved', l) ∧
      WindowCursor.play moves saved j' = .ok (saved', l') ∧
      (k ≤ s.data.length → .takeError ∉ moves → Told s saved j.source →
        Told s saved' l.source) := by
  induction moves generalizing saved j j' with
  | nil => exact ⟨saved, j, j', rfl, rfl, fun _ _ => id⟩
  | cons move moves ih =>
    obtain ⟨saved₁, j₁, j₁', hbroken, hshort, hlockstep, htold⟩ := h.make hs ht hdata move
    obtain ⟨saved', l, l', hbroken', hshort', htold'⟩ := ih j₁ j₁' hlockstep
    rw [WindowCursor.play, List.foldlM_cons]
    refine ⟨saved', l, l', (Run.bind_of_ok hbroken).trans hbroken',
      (Run.bind_of_ok hshort).trans hshort', fun hk hnever hbefore => ?_⟩
    rw [List.mem_cons, not_or] at hnever
    exact htold' hk hnever.2 (htold hk (Ne.symm hnever.1) hbefore)

end Moves

/-- A stream that breaks off at its start cannot be opened. Any other one can, by a look at its
start. -/
theorem ofReader_breaksOff {s : Script} {k size : Nat} (hs : s.BreaksAt k)
    (hsize : leastWindow ≤ size) (encoding : Encoding) (rule : Position → Char → Position) :
    k = 0 ∧ ofReader (.ofScript s) size encoding rule = .error (.unreadable s.message) ∨
      0 < k ∧ ∃ events, ofReader (.ofScript s) size encoding rule =
        .ok (⟨((Window.ofReader (.ofScript s) size).look encoding 0).1, .start, encoding, rule⟩,
          ⟨((Window.ofReader (.ofScript s) size).look encoding 0).2, events, []⟩) := by
  have hfresh := Window.breaksOff_ofReader s k hsize
  obtain ⟨-, -, ⟨hresult, hend, -⟩ | ⟨hresult, hend⟩⟩ :=
    hfresh.bytesAt hs (Nat.zero_le _) (Nat.le_trans encoding.longest_le hsize)
  · refine .inl ⟨hend.symm, ?_⟩
    rw [ofReader, if_neg (Nat.not_lt.2 hsize), Window.charAt]
    dsimp only
    rw [hresult]
    rfl
  · refine .inr ⟨Nat.pos_of_ne_zero ?_,
      ofReader_of_charAt rule hsize (congrArg (Except.map encoding.decode) hresult)⟩
    -- a window that holds nothing yet does not know of any end
    rintro rfl
    cases hfresh.exhausted_of_covers encoding.longest_pos (hend rfl)

/-- A stream that breaks off at `k` can be opened exactly if `k` is not its start, and from then on
it is like a stream that has the first `k` bytes of the data and never fails. Whatever windows the
two have and however their readers give the bytes, the same moves lead to the same cursors. When
`k` lies within the data and one of the cursors is at the end of the input, the failure can be
taken, unless it has been taken before. -/
theorem breaksOff_like_shorter {s t : Script} {k : Nat} (hs : s.BreaksAt k) (ht : t.NeverFails)
    (hdata : t.data = s.data.take k) {size size' : Nat} (hsize : leastWindow ≤ size)
    (hsize' : leastWindow ≤ size') (encoding : Encoding) (rule : Position → Char → Position) :
    (ofReader (.ofScript s) size encoding rule = .error (.unreadable s.message) ↔ k = 0) ∧
      (0 < k → ∃ c j j', ofReader (.ofScript s) size encoding rule = .ok (c, j) ∧
        ofReader (.ofScript t) size' encoding rule = .ok (c, j') ∧
        ∀ moves, ∃ saved l l', play moves [c] j = .ok (saved, l) ∧
          play moves [c] j' = .ok (saved, l') ∧
          (k ≤ s.data.length → .takeError ∉ moves → (∃ d ∈ saved, Cursor.current d = none) →
            ∃ m, takeError l = .ok (some s.message, m))) := by
  obtain ⟨rfl, hfails⟩ | ⟨hpos, events, hopen⟩ := ofReader_breaksOff hs hsize encoding rule
  · exact ⟨iff_of_true hfails rfl, fun hk => absurd hk (Nat.lt_irrefl 0)⟩
  have hshort := Window.faithful_ofReader t hsize'
  obtain ⟨events', hopen'⟩ :=
    ofReader_of_charAt rule hsize' (Window.charAt_eq hshort ht encoding 0).1
  obtain ⟨hseen, hbroken, htells⟩ :=
    (Window.breaksOff_ofReader s k hsize).look hs encoding (Nat.zero_le _)
  obtain ⟨hseen', hwindow'⟩ := look_eq encoding hshort ht 0
  rw [hdata] at hseen'
  rw [hseen] at hopen htells
  rw [hseen'] at hopen'
  refine ⟨iff_of_false (fun hfails => ?_) (Nat.ne_of_gt hpos),
    fun _ => ⟨_, _, _, hopen, hopen', fun moves => ?_⟩⟩
  · cases hopen.symm.trans hfails
  · have hlockstep : Lockstep s t k
        [⟨encoding.decode ((s.data.take k).drop 0), .start, encoding, rule⟩]
        ((Window.ofReader (.ofScript s) size).look encoding 0).2
        ((Window.ofReader (.ofScript t) size').look encoding 0).2 :=
      ⟨hbroken, hwindow', List.forall_mem_singleton.2 ⟨Nat.zero_le _, rfl⟩⟩
    obtain ⟨saved, l, l', hplay, hplay', htold⟩ :=
      hlockstep.play ⟨_, events, []⟩ ⟨_, events', []⟩ hs ht hdata moves
    refine ⟨saved, l, l', hplay, hplay', fun hk hnever ⟨d, hd, hnone⟩ => ?_⟩
    have hfirst := Window.tellsEnd_ofReader s size
    have hafter := htold hk hnever ⟨(htells hk).1.tellsEnd hfirst,
      List.forall_mem_singleton.2 ((htells hk).2 hfirst)⟩
    have herror := hafter.cursors d hd (current_eq_none_iff.1 hnone)
    exact ⟨_, congrArg (fun error => Except.ok (error, _)) herror⟩

/-- Three bytes that are read one at a time. The reader hangs up before the last. -/
def hungUp : Script := ⟨[97, 98, 99], some 1, some 2, [], [], [1], "hung up"⟩

def hungUpShorter : Script := ⟨[97, 98], none, none, [], [], [], "unreachable"⟩

/-- The second cursor is moved on twice. Both times it comes to the end of the input. -/
theorem breaksOff_like_shorter_hungUp :
    ∃ c j saved l m,
      ofReader (.ofScript hungUp) 4 .latin1 (Position.nextChar 4) = .ok (c, j) ∧
        play [.moveOn 0, .moveOn 1, .moveOn 1] [c] j = .ok (saved, l) ∧
        saved.map Cursor.current = [some 'a', some 'b', none, none] ∧
        takeError l = .ok (some "hung up", m) := by
  have hgives : hungUp.Gives := by
    rintro n ⟨⟩
    exact Nat.one_pos
  have hs : hungUp.BreaksAt 2 := ⟨rfl, rfl, rfl, hgives⟩
  have ht : hungUpShorter.NeverFails := ⟨rfl, rfl, rfl, nofun⟩
  have hroom : leastWindow ≤ 4 := Nat.le_refl 4
  have hopen : ofReader (.ofScript hungUpShorter) 4 .latin1 (Position.nextChar 4) =
      .ok (⟨some ('a', 1), .start, .latin1, Position.nextChar 4⟩,
        ⟨⟨⟨hungUpShorter, 2, 2, 1⟩, 4, 0, [97, 98], true, 1, none⟩,
          [.refilled 0 2 1], []⟩) := by with_unfolding_all rfl
  obtain ⟨c, j, j', hbroken, hshort, hmoves⟩ :=
    (breaksOff_like_shorter hs ht rfl hroom hroom .latin1 (Position.nextChar 4)).2 Nat.two_pos
  obtain ⟨saved, l, l', hplay, hplay', htold⟩ := hmoves [.moveOn 0, .moveOn 1, .moveOn 1]
  cases hopen.symm.trans hshort
  cases hplay'
  obtain ⟨m, htake⟩ := htold (by decide) (by decide) ⟨_, List.mem_cons_of_mem _
    (List.mem_cons_of_mem _ (List.mem_cons_self)), rfl⟩
  exact ⟨_, j, _, l, m, hbroken, hplay, rfl, htake⟩

end WindowCursor

end Descent

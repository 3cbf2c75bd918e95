import Descent.Proofs.Stream.Session

/-! What a stream shows after refills that failed before they had a byte. Such a refill empties the
window and leaves it where it was. If the window was exhausted, it goes on to say that the input
ends with it, and the cursor that comes to its base sees the end of the input there without any
failure. As long as no refill has done so, a cursor sees what the data have unless its own refill
fails. -/
namespace Descent

namespace Window

variable {s : Script} {size offset want : Nat} {encoding : Encoding} {w : Window}

/-- A look shows what the data have, or its refill fails and the window keeps the failure. Where the
window has what is looked for, it has to know where the data end. -/
theorem Genuine.look_eq_or_fails (h : w.Genuine s size) (hs : s.Gives) (hsize : 4 ≤ size)
    (hend : w.covers offset encoding.longest = true → w.KnowsEnd s)
    (hclean : ∀ f ∈ w.refillsAt offset encoding.longest, f.Clean) :
    (w.look encoding offset).1 = encoding.decode (s.data.drop offset) ∨
      ∃ f ∈ w.refillsAt offset encoding.longest, f.Fails ∧ ∃ message,
        (f.window.fill f.offset).result = .error message ∧
          (w.look encoding offset).2.error = some message := by
  have hlongest : encoding.longest ≤ size := Nat.le_trans encoding.longest_le hsize
  obtain ⟨bytes, hok, hlook⟩ | ⟨message, herror, hlook⟩ := w.look_cases encoding offset
  · obtain ⟨-, -, -, -, hfull⟩ := h.bytesAt_ok hs hsize hlongest hok
    rw [hlook, hfull hend (not_readFails_of_bytesAt hok hclean)]
    exact .inl (encoding.decode_take _)
  · obtain ⟨f, hf, hfails, hresult⟩ := fails_of_bytesAt herror
    rw [hlook]
    exact .inr ⟨f, hf, hfails, message, hresult, rfl⟩

/-- A window that is astray shows the end of the input at its base. -/
theorem Astray.look_eq_none (h : w.Astray s) (hbase : w.base = offset) :
    (w.look encoding offset).1 = none := by
  obtain ⟨hexhausted, hbytes, -⟩ := h
  have hcovers : w.covers offset encoding.longest = true :=
    covers_iff.2 ⟨Nat.le_of_eq hbase, .inr ⟨hexhausted, hbase ▸ Nat.le_add_right _ _⟩⟩
  have hslice : w.slice offset encoding.longest = [] := by
    rw [slice, hbytes, List.drop_nil, List.take_nil]
  rw [look, charAt, bytesAt, if_pos hcovers, hslice]
  exact encoding.decode_nil

theorem Astray.base_eq (h : w.Astray s) (hcovers : w.covers offset want = true) :
    w.base = offset := by
  obtain ⟨hbase, hstop⟩ := covers_iff.1 hcovers
  rw [stop, h.2.1] at hstop
  exact Nat.le_antisymm hbase (hstop.elim (fun h => Nat.le_trans (Nat.le_add_right _ _) h) (·.2))

end Window

namespace Session

variable {script : Script} {capacity : Nat} {encoding : Encoding}
  {rule : Position → Char → Position} {s : Session}

/-- A failed refill does not hide data as long as none has lost the end of the data. Where reads
fail only before there is a byte, the window then knows where the data end, and a cursor that is
moved on sees what the data have there. It sees the end of the input before them only if its own
refill fails and the window keeps that failure. From here on the window knows where the data end
unless this refill loses them. -/
theorem Reached.shows_data (h : s.Reached script capacity encoding rule)
    (hgives : script.Gives) (hclean : ∀ f ∈ s.refills, f.Clean)
    (hkeeps : ∀ f ∈ s.refills, ¬f.LosesEnd) :
    (s.journal.source.exhausted = true →
        s.journal.source.base + s.journal.source.bytes.length = script.data.length) ∧
      ∀ c ∈ s.cursors, (Cursor.current c).isSome →
        (∀ f ∈ c.refills s.journal.source, f.Clean) →
        ∃ d j, (advance c : Run Window WindowCursor) s.journal = .ok (d, j) ∧
          (Cursor.current d = none → d.position.offset < script.data.length →
            ∃ f ∈ c.refills s.journal.source, f.Fails ∧ ∃ message,
              (f.window.fill f.offset).result = .error message ∧
                j.source.error = some message) ∧
          ((∀ f ∈ c.refills s.journal.source, ¬f.Fails) →
            d.ahead = encoding.decode (script.data.drop d.position.offset)) ∧
          ((j.source.exhausted = true →
              j.source.base + j.source.bytes.length = script.data.length) ↔
            ∀ f ∈ c.refills s.journal.source, ¬f.LosesEnd) := by
  have hsound := h.sound hgives
  have hwindow := hsound.window
  have hknows := hsound.knowsEnd hclean hkeeps
  refine ⟨hknows, fun c hc hcurrent hown => ?_⟩
  obtain ⟨⟨ch, size⟩, hahead⟩ := Option.isSome_iff_exists.1 (Option.isSome_map ▸ hcurrent)
  obtain ⟨d, j, hadvance⟩ := WindowCursor.exists_advance hahead s.journal
  obtain ⟨-, hoffset, hrefills, hseen, hsource⟩ := hsound.of_advance hc hadvance
  rw [hrefills] at hown ⊢
  have hshows := hwindow.look_eq_or_fails hgives hsound.roomy (fun _ => hknows) hown
  rw [← hseen, ← hsource] at hshows
  refine ⟨d, j, hadvance, fun hnone hmore => ?_, fun hnone => ?_, ?_⟩
  · rcases hshows with hshows | hfails
    · rw [Option.map_eq_none_iff.1 hnone] at hshows
      refine absurd hshows.symm (Encoding.decode_ne_none fun hnil => ?_)
      exact Nat.not_le.2 hmore (List.drop_eq_nil_iff.1 hnil)
    · exact hfails
  · rcases hshows with hshows | ⟨f, hf, hfails, -⟩
    · exact hshows
    · exact absurd hfails (hnone f hf)
  · rw [hsource]
    exact hwindow.knowsEnd_look_iff hgives hoffset hknows hown

/-- The one way in which data are hidden. A cursor whose own refill does not fail sees something
else than the data have exactly when it comes to the base of a window that is astray. -/
theorem Reached.hides_data_iff (h : s.Reached script capacity encoding rule)
    (hgives : script.Gives) (hclean : ∀ f ∈ s.refills, f.Clean) {c d : WindowCursor}
    {j : Journal Window} (hc : c ∈ s.cursors)
    (hadvance : (advance c : Run Window WindowCursor) s.journal = .ok (d, j))
    (hown : ∀ f ∈ c.refills s.journal.source, ¬f.Fails) :
    d.ahead ≠ encoding.decode (script.data.drop d.position.offset) ↔
      s.journal.source.Astray script ∧ s.journal.source.base = d.position.offset := by
  have hsound := h.sound hgives
  obtain ⟨-, -, hrefills, hseen, -⟩ := hsound.of_advance hc hadvance
  rw [hrefills] at hown
  rw [hseen]
  constructor
  · intro hhidden
    have hknown : ¬(s.journal.source.covers d.position.offset encoding.longest = true →
        s.journal.source.KnowsEnd script) := fun hend => by
      have hown' : ∀ f ∈ s.journal.source.refillsAt d.position.offset encoding.longest, f.Clean :=
        fun f hf => Refill.clean_of_not_readFails fun hread => hown f hf (.inr hread)
      rcases hsound.window.look_eq_or_fails hgives hsound.roomy hend hown' with
        hshows | ⟨f, hf, hfails, -⟩
      · exact hhidden hshows
      · exact hown f hf hfails
    obtain ⟨hcovers, hend⟩ := Classical.not_imp.1 hknown
    have hastray := (hsound.astray hclean).resolve_left hend
    exact ⟨hastray, hastray.base_eq hcovers⟩
  · rintro ⟨hastray, hbase⟩
    rw [hastray.look_eq_none hbase]
    refine (Encoding.decode_ne_none fun hnil => ?_).symm
    exact Nat.not_le.2 (hbase ▸ hastray.2.2) (List.drop_eq_nil_iff.1 hnil)

/-- Five letters. Reads with these numbers fail. -/
def letters (failReads : List Nat) : Script :=
  ⟨[97, 98, 99, 100, 101], none, none, failReads, [], [], "reset"⟩

def letterCursor (offset : Nat) (seen : Option Char) : WindowCursor :=
  ⟨seen.map fun c => (c, 1), ⟨1, offset + 1, offset⟩, .utf8, Position.nextChar 4⟩

theorem gives_letters (failReads : List Nat) : (letters failReads).Gives := nofun

/-- The second read fails, and the first cursor sees the end of the input behind `a`. Moved on once
more it sees `b`. -/
theorem shows_data_letters :
    ∃ s : Session, s.Reached (letters [2]) 4 .utf8 (Position.nextChar 4) ∧
      letterCursor 0 'a' ∈ s.cursors ∧ letterCursor 1 none ∈ s.cursors ∧
      ∃ d j, (advance (letterCursor 0 'a') : Run Window WindowCursor) s.journal = .ok (d, j) ∧
        d.ahead = some ('b', 1) := by
  have hopen : WindowCursor.ofReader (.ofScript (letters [2])) 4 .utf8 (Position.nextChar 4) =
      .ok (letterCursor 0 'a',
        ⟨⟨⟨letters [2], 4, 1, 1⟩, 4, 0, [97, 98, 99, 100], false, 1, none⟩,
          [.refilled 0 4 1], []⟩) := by with_unfolding_all rfl
  have hfail : (advance (letterCursor 0 'a') : Run Window WindowCursor)
      ⟨⟨⟨letters [2], 4, 1, 1⟩, 4, 0, [97, 98, 99, 100], false, 1, none⟩, [.refilled 0 4 1], []⟩ =
      .ok (letterCursor 1 none,
        ⟨⟨⟨letters [2], 1, 2, 2⟩, 4, 0, [], false, 1, some "reset"⟩,
          [.refilled 0 4 1, .readFailed 1 none "reset"], []⟩) := by with_unfolding_all rfl
  have hreached := (Reached.opened hopen).step (.advance (List.mem_singleton_self _) hfail)
  obtain ⟨-, hshows⟩ := hreached.shows_data (gives_letters _) (by decide +kernel)
    (by decide +kernel)
  obtain ⟨d, j, hadvance, -, hseen, -⟩ := hshows (letterCursor 0 'a')
    (List.mem_cons_of_mem _ (List.mem_singleton_self _)) rfl (by decide +kernel)
  obtain ⟨_, _, ⟨⟩, -, hplace, -⟩ := WindowCursor.advance_eq_ok hadvance
  refine ⟨_, hreached, .tail _ (.head _), .head _, d, j, hadvance, ?_⟩
  rw [hseen (by decide +kernel), hplace]
  rfl

/-- The same letters, read to their end from the third on. Now the fifth read fails, when the first
cursor is moved on again, and the failure is taken. Moved on again, the second cursor sees the end
of the input where the third letter is: no refill of its own has failed, and no failure is kept. -/
theorem silent_end :
    ∃ s : Session, s.Reached (letters [5]) 4 .utf8 (Position.nextChar 4) ∧
      (∀ f ∈ s.refills, f.Clean) ∧
      ∃ c ∈ s.cursors, ∃ d j,
        (advance c : Run Window WindowCursor) s.journal = .ok (d, j) ∧
          c.refills s.journal.source = [] ∧ Cursor.current d = none ∧
          d.position.offset < (letters [5]).data.length ∧ j.source.error = none ∧
          j.source.exhausted = true ∧
          j.source.base + j.source.bytes.length ≠ (letters [5]).data.length := by
  have hopen : WindowCursor.ofReader (.ofScript (letters [5])) 4 .utf8 (Position.nextChar 4) =
      .ok (letterCursor 0 'a',
        ⟨⟨⟨letters [5], 4, 1, 1⟩, 4, 0, [97, 98, 99, 100], false, 1, none⟩,
          [.refilled 0 4 1], []⟩) := by with_unfolding_all rfl
  have hsecond : (advance (letterCursor 0 'a') : Run Window WindowCursor)
      ⟨⟨⟨letters [5], 4, 1, 1⟩, 4, 0, [97, 98, 99, 100], false, 1, none⟩, [.refilled 0 4 1], []⟩ =
      .ok (letterCursor 1 'b',
        ⟨⟨⟨letters [5], 5, 2, 2⟩, 4, 1, [98, 99, 100, 101], false, 2, none⟩,
          [.refilled 0 4 1, .refilled 1 4 2], []⟩) := by with_unfolding_all rfl
  have hthird : (advance (letterCursor 1 'b') : Run Window WindowCursor)
      ⟨⟨⟨letters [5], 5, 2, 2⟩, 4, 1, [98, 99, 100, 101], false, 2, none⟩,
        [.refilled 0 4 1, .refilled 1 4 2], []⟩ =
      .ok (letterCursor 2 'c',
        ⟨⟨⟨letters [5], 5, 4, 3⟩, 4, 2, [99, 100, 101], true, 3, none⟩,
          [.refilled 0 4 1, .refilled 1 4 2, .refilled 2 3 3], []⟩) := by with_unfolding_all rfl
  have hfail : (advance (letterCursor 0 'a') : Run Window WindowCursor)
      ⟨⟨⟨letters [5], 5, 4, 3⟩, 4, 2, [99, 100, 101], true, 3, none⟩,
        [.refilled 0 4 1, .refilled 1 4 2, .refilled 2 3 3], []⟩ =
      .ok (letterCursor 1 none,
        ⟨⟨⟨letters [5], 1, 5, 4⟩, 4, 2, [], true, 3, some "reset"⟩,
          [.refilled 0 4 1, .refilled 1 4 2, .refilled 2 3 3, .readFailed 1 none "reset"],
          []⟩) := by with_unfolding_all rfl
  have hreached := ((((Reached.opened hopen).step (.advance (.head _) hsecond)).step
    (.advance (.head _) hthird)).step (.advance (.tail _ (.tail _ (.head _))) hfail)).step
    (.takeError rfl)
  have hend : (advance (letterCursor 1 'b') : Run Window WindowCursor)
      ⟨⟨⟨letters [5], 1, 5, 4⟩, 4, 2, [], true, 3, none⟩,
        [.refilled 0 4 1, .refilled 1 4 2, .refilled 2 3 3, .readFailed 1 none "reset"], []⟩ =
      .ok (letterCursor 2 none,
        ⟨⟨⟨letters [5], 1, 5, 4⟩, 4, 2, [], true, 3, none⟩,
          [.refilled 0 4 1, .refilled 1 4 2, .refilled 2 3 3, .readFailed 1 none "reset"],
          []⟩) := by with_unfolding_all rfl
  exact ⟨_, hreached, by decide +kernel, _, .tail _ (.tail _ (.head _)), _, _, hend, rfl, rfl,
    by decide, rfl, rfl, by decide⟩

end Session

end Descent

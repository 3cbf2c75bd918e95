import Descent.Proofs.Stream.Session
import Descent.Proofs.Stream.Utf8

/-! Characters torn apart by failed reads. After a read that fails the window ends with the bytes
that were read, and it says that the input ends there too. If this is inside a character, its first
bytes are decoded without the others. No other cursor shows a token that is not in the data. -/
namespace Descent

namespace Encoding

open String (utf8EncodeChar)

variable {encoding : Encoding} {data part bytes : List UInt8} {offset stop size : Nat} {c : Char}

/-- The character at `offset` begins in front of `stop` and goes on behind it. -/
def Splits (encoding : Encoding) (data : List UInt8) (offset stop : Nat) : Prop :=
  offset < stop ∧ ∃ c size, encoding.decode (data.drop offset) = some (c, size) ∧
    stop < offset + size

theorem splits_iff (h : encoding.decode (data.drop offset) = some (c, size)) :
    encoding.Splits data offset stop ↔ offset < stop ∧ stop < offset + size := by
  simp [Splits, h]

theorem size_le_longest (h : encoding.decode bytes = some (c, size)) :
    size ≤ encoding.longest := by
  rw [← encoding.decode_take] at h
  exact Nat.le_trans (size_of_decode h).2 (List.length_take_le _ _)

/-- Only in UTF-8 a character has more than one byte. -/
theorem Splits.eq_utf8 (h : encoding.Splits data offset stop) : encoding = .utf8 := by
  obtain ⟨hstart, c, size, hdecode, hstop⟩ := h
  cases encoding with
  | utf8 => rfl
  | latin1 =>
    have hsize : size ≤ 1 := size_le_longest hdecode
    omega

/-- The first bytes of others are decoded to the same character as long as it is among them, and
otherwise the first of them is replaced. -/
theorem decode_of_prefix (hpart : part <+: bytes) (hne : part ≠ [])
    (h : encoding.decode bytes = some (c, size)) :
    encoding.decode part =
      if size ≤ part.length then some (c, size) else some (replacement, 1) := by
  obtain ⟨b, first, rfl⟩ := List.exists_cons_of_ne_nil hne
  obtain ⟨more, rfl⟩ := hpart
  cases encoding with
  | latin1 =>
    cases h
    rw [if_pos (Nat.succ_le_of_lt (List.length_pos_iff.2 hne))]
    rfl
  | utf8 =>
    rw [List.cons_append] at h
    obtain ⟨d, hd, hdecode⟩ | ⟨hnone, hdecode⟩ := decodeUtf8_cons b first
    · have hwhole := decodeUtf8_of_prefix (hd.trans (List.prefix_append _ more))
      cases h.symm.trans hwhole
      rw [if_pos hd.length_le]
      exact hdecode
    · obtain ⟨d, hd, hwhole⟩ | ⟨-, hwhole⟩ := decodeUtf8_cons b (first ++ more)
      · cases h.symm.trans hwhole
        have hlong : ¬(utf8EncodeChar c).length ≤ (b :: first).length := fun hshort =>
          hnone c (List.prefix_of_prefix_length_le hd (List.prefix_append (b :: first) more) hshort)
        rw [if_neg hlong]
        exact hdecode
      · cases h.symm.trans hwhole
        rw [ite_self]
        exact hdecode

end Encoding

namespace Reader

variable {r : Reader} {room : Nat}

/-- A reader that gives anything gives something with every read. -/
theorem gives_of_readUpTo (h : (r.readUpTo room).1 ≠ []) : r.script.Gives := by
  fun_induction readUpTo r room with
  | case1 => exact absurd rfl h
  | case2 r room hroom hout ih => exact ih h
  | case3 => exact absurd rfl h
  | case4 => exact absurd rfl h
  | case5 r room hroom b read hout more failure last hlast ih =>
    intro n hn
    have hlength := congrArg List.length (eq_available_of_given hout).1
    simp only [available, hn, atMost, List.length_cons, List.length_take] at hlength
    omega

theorem script_foldl_after (results : List ReadResult) (r : Reader) :
    (results.foldl after r).script = r.script := by
  induction results generalizing r with
  | nil => rfl
  | cons result results ih =>
    apply ih

end Reader

namespace Refill

variable {f : Refill}

/-- A read fails while the refill stands inside the character at `offset`. -/
def Tears (f : Refill) (encoding : Encoding) (data : List UInt8) (offset : Nat) : Prop :=
  f.ReadFails ∧ f.offset ≤ offset ∧ encoding.Splits data offset (f.offset + f.bytes.length)

theorem script_reader (f : Refill) : f.reader.script = f.window.reader.script :=
  (Reader.script_foldl_after _ _).trans (Reader.seek_eq _ _).1

theorem gives_of_bytes (h : f.bytes ≠ []) : f.window.reader.script.Gives := by
  have hseek : ¬f.SeekFails := by
    intro hseek
    obtain ⟨-, -, hreads⟩ := seek_of_fails hseek
    rw [bytes, hreads] at h
    exact h rfl
  obtain ⟨reader, -, -, hscript, hrow⟩ := seek_of_not_fails hseek
  rw [← hscript]
  apply Reader.gives_of_readUpTo
  rw [hrow]
  exact h

end Refill

namespace Window

variable {s : Script} {refills : List Refill} {w : Window} {encoding : Encoding}
  {offset want : Nat} {t : Char × Nat}

/-- A window with a part of the data. Where it says that the input ends with it although the data go
on, it is what a refill has left whose read failed. -/
structure Stems (s : Script) (refills : List Refill) (w : Window) : Prop where
  script : w.reader.script = s
  roomy : WindowCursor.leastWindow ≤ w.capacity
  bytes : w.bytes <+: s.data.drop w.base
  short : w.bytes ≠ [] → w.exhausted = true → w.stop < s.data.length →
    ∃ f ∈ refills, f.ReadFails ∧ f.offset = w.base ∧ f.bytes = w.bytes

/-- Bytes are served from a window that covers them. -/
theorem covers_of_bytesAt {bytes : List UInt8} (hwant : want ≤ w.capacity)
    (h : (w.bytesAt offset want).result = .ok bytes) :
    (w.bytesAt offset want).window.covers offset want = true ∧
      bytes = (w.bytesAt offset want).window.slice offset want := by
  obtain ⟨hcovers, -, hserved⟩ | ⟨-, filled, -, hends, hserved⟩ := w.bytesAt_cases offset want
  · rw [hserved] at h ⊢
    cases h
    exact ⟨hcovers, rfl⟩
  · rw [hserved] at h ⊢
    cases hends with
    | unsought => cases h
    | unread => cases h
    | filled =>
      cases h
      refine ⟨covers_iff.2 ⟨Nat.le_refl _, ?_⟩, rfl⟩
      by_cases hfull : (Refill.mk w offset).bytes.length < w.capacity
      · exact .inr ⟨decide_eq_true hfull, Nat.le_add_right _ _⟩
      · exact .inl (Nat.add_le_add_left (Nat.le_trans hwant (Nat.not_lt.1 hfull)) _)

/-- What a look shows is decoded from the window as it is then. -/
theorem look_eq_some (hroomy : WindowCursor.leastWindow ≤ w.capacity)
    (h : (w.look encoding offset).1 = some t) :
    (w.look encoding offset).2.covers offset encoding.longest = true ∧
      encoding.decode ((w.look encoding offset).2.slice offset encoding.longest) = some t := by
  have hwant : encoding.longest ≤ w.capacity := Nat.le_trans encoding.longest_le hroomy
  obtain ⟨bytes, hok, hlook⟩ | ⟨message, -, hlook⟩ := w.look_cases encoding offset
  · obtain ⟨hcovers, hbytes⟩ := covers_of_bytesAt hwant hok
    rw [hlook] at h ⊢
    exact ⟨hcovers, hbytes ▸ h⟩
  · rw [hlook] at h
    cases h

namespace Stems

theorem ends {f : Refill} {served : Served Unit} (h : f.window.Stems s refills)
    (he : f.Ends served) : served.window.Stems s (f :: refills) := by
  have hscript : f.reader.script = s := f.script_reader.trans h.script
  cases he with
  | unsought =>
    refine ⟨hscript, h.roomy, h.bytes, fun hne hexhausted hstop => ?_⟩
    obtain ⟨g, hg, htorn⟩ := h.short hne hexhausted hstop
    exact ⟨g, List.mem_cons_of_mem f hg, htorn⟩
  | unread => exact ⟨hscript, h.roomy, List.nil_prefix, fun hne => absurd rfl hne⟩
  | filled hseek =>
    by_cases hne : f.bytes = []
    · refine ⟨hscript, h.roomy, ?_, fun h' => absurd hne h'⟩
      dsimp only
      rw [hne]
      exact List.nil_prefix
    · obtain ⟨-, hpart, hfull⟩ := Refill.bytes_prefix (Refill.gives_of_bytes hne)
      rw [h.script] at hpart hfull
      refine ⟨hscript, h.roomy, hpart.trans (List.take_prefix _ _), fun _ hexhausted hstop => ?_⟩
      refine ⟨f, List.mem_cons_self, ?_, rfl, rfl⟩
      by_contra hread
      have hlength := congrArg List.length (hfull (not_or.2 ⟨hseek, hread⟩))
      have hshort : f.bytes.length < f.window.capacity := of_decide_eq_true hexhausted
      have hmore : f.offset + f.bytes.length < s.data.length := hstop
      rw [List.length_take, List.length_drop] at hlength
      omega

theorem look (h : w.Stems s refills) (encoding : Encoding) (offset : Nat) :
    (w.look encoding offset).2.Stems s (w.refillsAt offset encoding.longest ++ refills) := by
  have hserved : (w.bytesAt offset encoding.longest).window.Stems s
      (w.refillsAt offset encoding.longest ++ refills) := by
    obtain ⟨-, hrefills, hserved⟩ | ⟨hrefills, filled, -, hends, hserved⟩ :=
      w.bytesAt_cases offset encoding.longest
    · rw [hserved, hrefills]
      exact h
    · rw [hserved, hrefills]
      exact ends (f := ⟨w, offset⟩) h hends
  obtain ⟨error, hlook⟩ := w.look_window encoding offset
  rw [hlook]
  exact ⟨hserved.script, hserved.roomy, hserved.bytes, hserved.short⟩

/-- A window shows the character of the data, or it ends inside of it after a read that failed. -/
theorem decode_slice (h : w.Stems s refills) (hcovers : w.covers offset encoding.longest = true)
    (hshows : encoding.decode (w.slice offset encoding.longest) = some t) :
    encoding.decode (s.data.drop offset) = some t ∧ ¬encoding.Splits s.data offset w.stop ∨
      t = (Encoding.replacement, 1) ∧ encoding.Splits s.data offset w.stop ∧
        ∃ f ∈ refills, f.ReadFails ∧ f.offset = w.base ∧ f.bytes = w.bytes := by
  obtain ⟨hbase, hstop⟩ := covers_iff.1 hcovers
  have hpart := slice_prefix_drop h.bytes hbase encoding.longest
  have hne : w.slice offset encoding.longest ≠ [] := by
    intro hnil
    rw [hnil, encoding.decode_nil] at hshows
    cases hshows
  have hsome := encoding.decode_ne_none fun hnil => hne (List.prefix_nil.1 (hnil ▸ hpart))
  obtain ⟨⟨c, size⟩, hdecode⟩ := Option.ne_none_iff_exists'.1 hsome
  have hlongest := Encoding.size_le_longest hdecode
  have hpos := List.length_pos_iff.2 hne
  have hlength : (w.slice offset encoding.longest).length =
      min encoding.longest (w.stop - offset) := by
    rw [slice, List.length_take, List.length_drop, stop]
    omega
  rw [Encoding.decode_of_prefix hpart hne hdecode] at hshows
  rw [Encoding.splits_iff hdecode]
  split at hshows
  · exact .inl ⟨hdecode.trans hshows, by omega⟩
  · have hdata := (Encoding.size_of_decode hdecode).2
    rw [List.length_drop] at hdata
    refine .inr ⟨(Option.some.inj hshows).symm, by omega, h.short ?_ ?_ (by omega)⟩
    · intro hnil
      rw [stop, hnil, List.length_nil] at hlength
      omega
    · rcases hstop with hstop | ⟨hexhausted, -⟩
      · omega
      · exact hexhausted

end Stems

end Window

namespace Session

variable {script : Script} {capacity : Nat} {encoding : Encoding}
  {rule : Position → Char → Position} {s t : Session}

/-- A token that is not in the data at the offset of its cursor is the first byte of a character
that a refill has torn apart. -/
structure Stems (script : Script) (encoding : Encoding) (s : Session) : Prop where
  window : s.journal.source.Stems script s.refills
  tokens : ∀ c ∈ s.cursors, ∀ token, c.ahead = some token →
    encoding.decode (script.data.drop c.position.offset) = some token ∨
      encoding = .utf8 ∧ token = (Encoding.replacement, 1) ∧
        ∃ f ∈ s.refills, f.Tears encoding script.data c.position.offset

theorem stems_fresh (h : WindowCursor.leastWindow ≤ capacity) :
    Stems script encoding ⟨[], ⟨.ofReader (.ofScript script) capacity, [], []⟩, []⟩ :=
  ⟨⟨rfl, h, List.nil_prefix, fun hne => absurd rfl hne⟩, nofun⟩

/-- What a cursor shows that has just been come to. -/
theorem Stems.seen (h : s.Stems script encoding) {offset : Nat} {token : Char × Nat} {w : Window}
    (hahead : (s.journal.source.look encoding offset).1 = some token)
    (hsource : (s.journal.source.look encoding offset).2 = w) :
    encoding.decode (script.data.drop offset) = some token ∧
        ¬encoding.Splits script.data offset (w.base + w.bytes.length) ∨
      encoding = .utf8 ∧ token = (Encoding.replacement, 1) ∧
        ∃ f ∈ s.journal.source.refillsAt offset encoding.longest ++ s.refills,
          f.Tears encoding script.data offset ∧ f.offset = w.base ∧ f.bytes = w.bytes := by
  subst hsource
  obtain ⟨hcovers, hdecode⟩ := Window.look_eq_some h.window.roomy hahead
  obtain hgenuine | ⟨htoken, hsplits, f, hf, hread, hbase, hbytes⟩ :=
    (h.window.look encoding offset).decode_slice hcovers hdecode
  · exact .inl hgenuine
  · refine .inr ⟨hsplits.eq_utf8, htoken, f, hf, ⟨hread, ?_, ?_⟩, hbase, hbytes⟩
    · rw [hbase]
      exact (Window.covers_iff.1 hcovers).1
    · rw [hbase, hbytes]
      exact hsplits

theorem Stems.look (h : s.Stems script encoding) {c : WindowCursor} {j : Journal Window}
    (hahead : c.ahead = (s.journal.source.look encoding c.position.offset).1)
    (hsource : j.source = (s.journal.source.look encoding c.position.offset).2) :
    Stems script encoding ⟨c :: s.cursors, j,
      s.journal.source.refillsAt c.position.offset encoding.longest ++ s.refills⟩ := by
  refine ⟨?_, List.forall_mem_cons.2 ⟨?_, ?_⟩⟩
  · dsimp only
    rw [hsource]
    exact h.window.look encoding c.position.offset
  · intro token htoken
    obtain ⟨hgenuine, -⟩ | ⟨hutf8, hfirst, f, hf, htears, -⟩ :=
      h.seen (hahead.symm.trans htoken) rfl
    · exact .inl hgenuine
    · exact .inr ⟨hutf8, hfirst, f, hf, htears⟩
  · intro d hd token htoken
    obtain hgenuine | ⟨hutf8, hfirst, f, hf, htears⟩ := h.tokens d hd token htoken
    · exact .inl hgenuine
    · exact .inr ⟨hutf8, hfirst, f, List.mem_append_right _ hf, htears⟩

theorem Reached.stems (h : s.Reached script capacity encoding rule) :
    s.Stems script encoding := by
  refine h.keeps stems_fresh (fun h _ _ hahead hsource => h.look hahead hsource) fun h hsource => ?_
  refine ⟨?_, h.tokens⟩
  rw [hsource]
  exact ⟨h.window.script, h.window.roomy, h.window.bytes, h.window.short⟩

/-- The one way in which a failure changes a token. Each token that a cursor shows is that of the
data at its offset, unless it is the replacement for the first byte of a character that some refill
has torn apart. A cursor that is moved on shows such a token exactly where the window holds what the
refill has left. -/
theorem Reached.tokens_genuine (h : s.Reached script capacity encoding rule) :
    (∀ c ∈ s.cursors, ∀ token, c.ahead = some token →
      encoding.decode (script.data.drop c.position.offset) = some token ∨
        encoding = .utf8 ∧ token = (Encoding.replacement, 1) ∧
          ∃ f ∈ s.refills, f.Tears encoding script.data c.position.offset) ∧
      ∀ c ∈ s.cursors, ∀ d j token,
        (advance c : Run Window WindowCursor) s.journal = .ok (d, j) → d.ahead = some token →
        (encoding.decode (script.data.drop d.position.offset) ≠ some token ↔
          ∃ f ∈ c.refills s.journal.source ++ s.refills,
            f.Tears encoding script.data d.position.offset ∧
              f.offset = j.source.base ∧ f.bytes = j.source.bytes) := by
  have hstems := h.stems
  refine ⟨hstems.tokens, fun c hc d j token hadvance htoken => ?_⟩
  obtain ⟨-, -, hrefills, hahead, hsource⟩ :=
    WindowCursor.looks_of_advance (h.encoded c hc) hadvance
  rw [hrefills]
  obtain ⟨hgenuine, hwhole⟩ | ⟨-, rfl, hcause⟩ :=
    hstems.seen (hahead.symm.trans htoken) hsource.symm
  · refine iff_of_false (fun hchanged => hchanged hgenuine) ?_
    rintro ⟨f, -, htears, hbase, hbytes⟩
    rw [← hbase, ← hbytes] at hwhole
    exact hwhole htears.2.2
  · refine iff_of_true (fun hgenuine => ?_) hcause
    obtain ⟨f, -, ⟨-, -, hsplits⟩, -⟩ := hcause
    have hsplits := (Encoding.splits_iff hgenuine).1 hsplits
    omega

/-- The bytes of `aé`, read two at a time. The second read fails, inside the second letter. -/
def accented : Script := ⟨[0x61, 0xC3, 0xA9], some 2, none, [2], [], [], "cut"⟩

def accentedCursor (offset : Nat) (seen : Char) : WindowCursor :=
  ⟨some (seen, 1), ⟨1, offset + 1, offset⟩, .utf8, Position.nextChar 4⟩

/-- After the second read the window has the first byte of the second letter but not the other. -/
def accentedJournal : Journal Window :=
  ⟨⟨⟨accented, 2, 2, 1⟩, 4, 0, [0x61, 0xC3], true, 1, some "cut"⟩,
    [.readFailed 0 (some 2) "cut", .refilled 0 2 1], []⟩

theorem accented_opened :
    WindowCursor.ofReader (.ofScript accented) 4 .utf8 (Position.nextChar 4) =
      .ok (accentedCursor 0 'a', accentedJournal) := by with_unfolding_all rfl

theorem accented_advance :
    (advance (accentedCursor 0 'a') : Run Window WindowCursor) accentedJournal =
      .ok (accentedCursor 1 Encoding.replacement, accentedJournal) := by with_unfolding_all rfl

/-- Behind `a` the replacement is shown, so a refill has torn the second letter apart. -/
theorem tokens_genuine_accented :
    ∃ s : Session, s.Reached accented 4 .utf8 (Position.nextChar 4) ∧
      ∃ c ∈ s.cursors, ∃ d, (advance c : Run Window WindowCursor) s.journal = .ok (d, s.journal) ∧
        d.ahead = some (Encoding.replacement, 1) ∧
        ∃ f ∈ c.refills s.journal.source ++ s.refills,
          f.Tears .utf8 accented.data d.position.offset := by
  have hreached := Reached.opened accented_opened
  have hchanged :
      Encoding.decode .utf8 (accented.data.drop 1) ≠ some (Encoding.replacement, 1) := by decide
  obtain ⟨f, hf, htears, -⟩ := (hreached.tokens_genuine.2 _ (List.mem_singleton_self _) _ _ _
    accented_advance rfl).1 hchanged
  exact ⟨_, hreached, _, List.mem_singleton_self _, _, accented_advance, rfl, f, hf, htears⟩

/-- The second letter is shown as the replacement, although the data have it whole. -/
theorem torn_letter :
    ∃ s : Session, s.Reached accented 4 .utf8 (Position.nextChar 4) ∧
      ∃ c ∈ s.cursors, c.ahead = some (Encoding.replacement, 1) ∧
        Encoding.decode .utf8 (accented.data.drop c.position.offset) = some ('é', 2) :=
  ⟨_, (Reached.opened accented_opened).step (.advance (.head _) accented_advance), _, .head _, rfl,
    by decide⟩

end Session

end Descent

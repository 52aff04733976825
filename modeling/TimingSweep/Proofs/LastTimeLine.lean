import TimingSweep.Proofs.Decoding
import TimingSweep.Proofs.Separators
import TimingSweep.Proofs.TimeLines

/-!
# The last time line, in octets

Text that is decoded leniently has its line feeds where the octets have theirs, so that the lines of
the text are the lines of the octets, and a broken sequence spoils no line but its own.

* `Octets.splitOn_decode`: a text is decoded line by line;
* `TimeLine.last?_decode`: the reader finds the last line of the octets that begins with the mark;
* `TimeLine.read_by_last_line`: nothing but the octets behind that mark decides, and carriage
  returns before line feeds change nothing.
-/

namespace TimingSweep

namespace Octets

/-- The octet that ends a line. -/
def lineFeed : UInt8 := 10

def carriageReturn : UInt8 := 13

/-- The octets between the line feeds. -/
def lines (octets : List UInt8) : List (List UInt8) := octets.splitOn lineFeed

theorem lines_append (before after : List UInt8) :
    lines (before ++ lineFeed :: after) = lines before ++ lines after :=
  splitOn_append before after

theorem lines_of_line {line : List UInt8} (whole : lineFeed ∉ line) : lines line = [line] :=
  splitOn_of_not_mem whole

theorem lines_cons {line : List UInt8} (whole : lineFeed ∉ line) (rest : List UInt8) :
    lines (line ++ lineFeed :: rest) = line :: lines rest :=
  splitOn_append_of_not_mem whole rest

/-- Octets are one line, or a line before others. -/
theorem induction_on_lines {motive : List UInt8 → Prop}
    (last : ∀ line, lineFeed ∉ line → motive line)
    (more : ∀ line rest, lineFeed ∉ line → motive rest → motive (line ++ lineFeed :: rest))
    (octets : List UInt8) : motive octets := by
  generalize size : octets.length = n
  induction n using Nat.strongRecOn generalizing octets with
  | ind n ih =>
    by_cases member : lineFeed ∈ octets
    · obtain ⟨line, rest, rfl, whole⟩ := List.eq_append_cons_of_mem member
      rw [List.length_append, List.length_cons] at size
      exact more line rest whole (ih rest.length (by omega) rest rfl)
    · exact last octets member

/-- The octets up to the next line feed. -/
def line (octets : List UInt8) : List UInt8 := octets.takeWhile (· ≠ lineFeed)

theorem lineFeed_not_mem_line (octets : List UInt8) : lineFeed ∉ line octets := by
  intro member
  have kept := List.all_eq_true.mp List.all_takeWhile _ member
  simp at kept

theorem eq_line_or_exists (octets : List UInt8) :
    octets = line octets ∨ ∃ rest, octets = line octets ++ lineFeed :: rest := by
  have whole : octets = line octets ++ octets.dropWhile (· ≠ lineFeed) :=
    List.takeWhile_append_dropWhile.symm
  cases dropped : octets.dropWhile (· ≠ lineFeed) with
  | nil =>
    rw [dropped, List.append_nil] at whole
    exact Or.inl whole
  | cons octet rest =>
    have feed : octet = lineFeed := by
      have head := List.head?_dropWhile_not (· ≠ lineFeed) octets
      rw [dropped] at head
      simpa using head
    rw [dropped, feed] at whole
    exact Or.inr ⟨rest, whole⟩

/-- A line can begin behind these octets: there are none, or the last is a line feed. -/
def EndsLine (before : List UInt8) : Prop := ∀ octet ∈ before.getLast?, octet = lineFeed

theorem endsLine_nil : EndsLine [] := fun _ h => nomatch h

theorem endsLine_append {before : List UInt8} (ends : EndsLine before) (line : List UInt8) :
    EndsLine (line ++ lineFeed :: before) := by
  cases before with
  | nil =>
    rw [EndsLine, List.getLast?_concat]
    rintro _ ⟨⟩
    rfl
  | cons x before =>
    rw [EndsLine, List.getLast?_append, List.getLast?_cons_cons]
    simpa [EndsLine] using ends

/-- Every line stands where a line can begin. -/
theorem exists_of_mem_lines {octets line : List UInt8} (member : line ∈ lines octets) :
    ∃ before after, octets = before ++ line ++ after ∧ EndsLine before := by
  induction octets using induction_on_lines with
  | last whole clean =>
    rw [lines_of_line clean, List.mem_singleton] at member
    exact ⟨[], [], by simp [member], endsLine_nil⟩
  | more first rest clean ih =>
    rw [lines_cons clean, List.mem_cons] at member
    rcases member with rfl | later
    · exact ⟨[], lineFeed :: rest, by simp, endsLine_nil⟩
    · obtain ⟨before, after, rfl, ends⟩ := ih later
      exact ⟨first ++ lineFeed :: before, after, by simp, endsLine_append ends first⟩

/-- What stands where a line can begin does not share a line with what is before it. -/
theorem exists_lines {before : List UInt8} (ends : EndsLine before) :
    ∃ earlier, ∀ rest, lines (before ++ rest) = earlier ++ lines rest := by
  rcases List.eq_nil_or_concat before with rfl | ⟨line, octet, rfl⟩
  · exact ⟨[], fun rest => rfl⟩
  · have feed : octet = lineFeed := ends octet (by simp)
    subst feed
    refine ⟨lines line, fun rest => ?_⟩
    rw [List.concat_eq_append, List.append_assoc, List.singleton_append, lines_append]

theorem splitOn_decode (octets : List UInt8) :
    (Utf8.decode octets).splitOn '\n' = (lines octets).map Utf8.decode := by
  have whole : ∀ line, lineFeed ∉ line → '\n' ∉ Utf8.decode line := fun line clean read =>
    clean (Utf8.octet_mem_of_mem_decodeFrom Utf8.ready_none read (by decide))
  induction octets using induction_on_lines with
  | last line clean =>
    rw [splitOn_of_not_mem (whole line clean), lines_of_line clean, List.map_singleton]
  | more line rest clean ih =>
    rw [Utf8.decode_append_ascii line (by decide), lines_cons clean, List.map_cons, ← ih]
    exact splitOn_append_of_not_mem (whole line clean) _

end Octets

section Blanks

variable {blank : Char} (isBlank_blank : isBlank blank = true) (text : List Char)
include isBlank_blank

theorem trimStart_append_blank :
    trimStart (text ++ [blank]) =
      if (trimStart text).isEmpty then [] else trimStart text ++ [blank] := by
  rw [trimStart, List.dropWhile_append, List.dropWhile_cons, if_pos isBlank_blank]
  rfl

theorem trim_append_blank : trim (text ++ [blank]) = trim text := by
  rw [trim, trimStart_append_blank isBlank_blank, trim]
  split
  · rename_i empty
    rw [List.isEmpty_iff.mp empty]
  · rw [trimEnd, trimEnd, List.reverse_append]
    simp [isBlank_blank]

theorem firstWord_append_blank : firstWord (text ++ [blank]) = firstWord text := by
  rw [firstWord, trimStart_append_blank isBlank_blank, firstWord]
  split
  · rename_i empty
    rw [List.isEmpty_iff.mp empty]
  · rw [List.takeWhile_append]
    split
    · rename_i whole
      rw [List.takeWhile_cons_of_neg (by simp [isBlank_blank]), List.append_nil]
      exact (List.takeWhile_prefix _).eq_of_length whole |>.symm
    · rfl

end Blanks

namespace TimeLine

open Octets

/-- The mark as it is sent. -/
def markOctets : List UInt8 := Utf8.encode mark

theorem ascii_mark : ∀ c ∈ mark, c.toNat < 0x80 := by
  show ∀ c ∈ ['t', 'i', 'm', 'e', ':'], c.toNat < 0x80
  simp

/-- A line begins at the offset, and it begins with the mark. -/
def BeginsAt (octets : List UInt8) (offset : Nat) : Prop :=
  (offset = 0 ∨ octets[offset - 1]? = some lineFeed) ∧ markOctets <+: octets.drop offset

instance (octets : List UInt8) (offset : Nat) : Decidable (BeginsAt octets offset) :=
  inferInstanceAs (Decidable (_ ∧ _))

/-- No time line begins behind the one at the offset. -/
def LastBeginsAt (octets : List UInt8) (offset : Nat) : Prop :=
  BeginsAt octets offset ∧ ∀ later, BeginsAt octets later → later ≤ offset

/-- What stands behind the mark at an offset, up to the end of the line. -/
def behindMark (octets : List UInt8) (offset : Nat) : List UInt8 :=
  line (octets.drop (offset + markOctets.length))

theorem BeginsAt.le_length {octets : List UInt8} {offset : Nat} (begins : BeginsAt octets offset) :
    offset ≤ octets.length := by
  obtain ⟨-, rest, marked⟩ := begins
  apply Nat.le_of_not_lt
  intro beyond
  rw [List.drop_eq_nil_of_le (Nat.le_of_lt beyond)] at marked
  cases marked

theorem beginsAt_iff {octets : List UInt8} {offset : Nat} :
    BeginsAt octets offset ↔ ∃ before rest,
      octets = before ++ (markOctets ++ rest) ∧ before.length = offset ∧ EndsLine before := by
  constructor
  · intro begins
    have length := List.length_take_of_le begins.le_length
    obtain ⟨start, rest, marked⟩ := begins
    refine ⟨octets.take offset, rest, ?_, length, ?_⟩
    · rw [marked, List.take_append_drop]
    · intro octet last
      rw [Option.mem_def, List.getLast?_eq_getElem?, length] at last
      rcases start with rfl | feed
      · cases last
      · rcases Nat.eq_zero_or_pos offset with rfl | positive
        · cases last
        · rw [List.getElem?_take_of_lt (by omega), feed] at last
          exact (Option.some.inj last).symm
  · rintro ⟨before, rest, rfl, rfl, ends⟩
    refine ⟨?_, ?_⟩
    · rcases Nat.eq_zero_or_pos before.length with first | positive
      · exact Or.inl first
      · right
        have index : before.length - 1 < before.length := by omega
        rw [List.getElem?_append_left index, ← List.getLast?_eq_getElem?]
        have last := List.getLast?_eq_some_getLast (List.length_pos_iff.mp positive)
        rw [last, ends _ last]
    · rw [List.drop_left]
      exact List.prefix_append ..

theorem exists_lastBeginsAt {octets : List UInt8} {offset : Nat} (begins : BeginsAt octets offset) :
    ∃ last, LastBeginsAt octets last := by
  generalize left : octets.length - offset = n
  induction n using Nat.strongRecOn generalizing offset with
  | ind n ih =>
    by_cases last : ∀ later, BeginsAt octets later → later ≤ offset
    · exact ⟨offset, begins, last⟩
    · simp only [Classical.not_forall, Nat.not_le, exists_prop] at last
      obtain ⟨later, begins_later, behind⟩ := last
      have := begins_later.le_length
      exact ih _ (by omega) begins_later rfl

theorem decode_mark_append (rest : List UInt8) :
    Utf8.decode (markOctets ++ rest) = mark ++ Utf8.decode rest :=
  (Utf8.decode_eq_append_iff ascii_mark).mpr ⟨rest, rfl, rfl⟩

theorem lineFeed_not_mem_mark_append {rest : List UInt8} (whole : lineFeed ∉ rest) :
    lineFeed ∉ markOctets ++ rest := by
  rw [List.mem_append, not_or]
  exact ⟨by decide, whole⟩

theorem mark_prefix_decode_iff {line : List UInt8} :
    mark <+: Utf8.decode line ↔ markOctets <+: line := by
  constructor
  · rintro ⟨text, read⟩
    obtain ⟨rest, rfl, -⟩ := (Utf8.decode_eq_append_iff ascii_mark).mp read.symm
    exact List.prefix_append ..
  · rintro ⟨rest, rfl⟩
    exact ⟨_, (decode_mark_append rest).symm⟩

/-- The last time line is found behind the offset at which it begins. -/
theorem last?_decode {octets : List UInt8} {offset : Nat} (last : LastBeginsAt octets offset) :
    last? (Utf8.decode octets) = some (Utf8.decode (behindMark octets offset)) := by
  obtain ⟨begins, latest⟩ := last
  obtain ⟨before, rest, rfl, rfl, ends⟩ := beginsAt_iff.mp begins
  obtain ⟨earlier, before_lines⟩ := exists_lines ends
  have behind : behindMark (before ++ (markOctets ++ rest)) before.length = line rest := by
    rw [behindMark, ← List.append_assoc, ← List.length_append, List.drop_left]
  have clean := lineFeed_not_mem_mark_append (lineFeed_not_mem_line rest)
  have decoded := decode_mark_append (line rest)
  rw [behind, last?_eq_some_iff, IsLast, splitOn_decode, before_lines, List.map_append]
  rcases eq_line_or_exists rest with only | ⟨after, others⟩
  · refine ⟨earlier.map Utf8.decode, [], ?_, by simp⟩
    rw [← decoded, ← only, lines_of_line (only ▸ clean), List.map_singleton]
  · generalize line rest = first at *
    subst others
    refine ⟨earlier.map Utf8.decode, (lines after).map Utf8.decode, ?_, ?_⟩
    · rw [← List.append_assoc markOctets, lines_cons clean, List.map_cons, decoded]
    · intro text member marked
      obtain ⟨later, held, rfl⟩ := List.mem_map.mp member
      obtain ⟨tail, rfl⟩ := mark_prefix_decode_iff.mp marked
      obtain ⟨between, beyond, rfl, between_ends⟩ := exists_of_mem_lines held
      -- Such a line would begin behind the one at the offset.
      have begins_later := latest _ (beginsAt_iff.mpr
        ⟨before ++ (markOctets ++ first) ++ lineFeed :: between, tail ++ beyond, by simp, rfl,
          endsLine_append between_ends _⟩)
      simp only [List.length_append, List.length_cons] at begins_later
      omega

theorem time_ne_missing (rest : List Char) : time rest ≠ .error .missing := by
  unfold time
  split
  · simp
  · dsimp only
    split <;> simp

theorem read_eq_missing_iff {octets : List UInt8} :
    read (Utf8.decode octets) = .error .missing ↔ ¬ ∃ offset, BeginsAt octets offset := by
  constructor
  · rintro missing ⟨offset, begins⟩
    obtain ⟨last, begins⟩ := exists_lastBeginsAt begins
    rw [read_of_last (last?_decode begins)] at missing
    exact time_ne_missing _ missing
  · intro unmarked
    apply read_of_noTimeLine
    rw [last?, List.getLast?_eq_none_iff, List.filterMap_eq_nil_iff, splitOn_decode]
    intro text member
    obtain ⟨line, held, rfl⟩ := List.mem_map.mp member
    rw [afterMark?_eq_none]
    intro marked
    obtain ⟨tail, rfl⟩ := mark_prefix_decode_iff.mp marked
    obtain ⟨before, behind, rfl, ends⟩ := exists_of_mem_lines held
    exact unmarked ⟨before.length, beginsAt_iff.mpr ⟨before, tail ++ behind, by simp, rfl, ends⟩⟩

/-- Every line feed with a carriage return before it. -/
def returned (octets : List UInt8) : List UInt8 :=
  octets.flatMap fun octet => if octet = lineFeed then [carriageReturn, lineFeed] else [octet]

theorem returned_of_line {line : List UInt8} (whole : lineFeed ∉ line) : returned line = line := by
  unfold returned
  induction line with
  | nil => rfl
  | cons octet rest ih =>
    rw [List.mem_cons, not_or] at whole
    rw [List.flatMap_cons, if_neg (Ne.symm whole.1), ih whole.2, List.singleton_append]

theorem returned_append {line : List UInt8} (whole : lineFeed ∉ line) (rest : List UInt8) :
    returned (line ++ lineFeed :: rest) =
      line ++ [carriageReturn] ++ lineFeed :: returned rest := by
  have before := returned_of_line whole
  unfold returned at *
  rw [List.flatMap_append, List.flatMap_cons, before, if_pos rfl, List.append_assoc]
  rfl

/-- The times of the time lines among some lines. -/
def times (lines : List (List UInt8)) : List (Except TimeFault Binary64) :=
  lines.filterMap fun line => (afterMark? (Utf8.decode line)).map time

theorem read_decode (octets : List UInt8) :
    read (Utf8.decode octets) = (times (lines octets)).getLast?.getD (.error .missing) := by
  have last : (last? (Utf8.decode octets)).map time = (times (lines octets)).getLast? := by
    rw [last?, splitOn_decode, List.filterMap_map, ← List.getLast?_map, List.map_filterMap]
    rfl
  rw [← last, read]
  cases last? (Utf8.decode octets) <;> rfl

theorem time_append_return (rest : List Char) : time (rest ++ ['\r']) = time rest := by
  have blank : isBlank '\r' = true := by decide
  rw [time, firstWord_append_blank blank, trim_append_blank blank]
  rfl

theorem afterMark?_append_return (text : List Char) :
    afterMark? (text ++ ['\r']) = (afterMark? text).map (· ++ ['\r']) := by
  cases found : afterMark? text with
  | some rest =>
    rw [afterMark?_eq_some] at found
    rw [found, List.append_assoc]
    exact afterMark?_eq_some.mpr rfl
  | none =>
    rw [afterMark?_eq_none] at found
    rw [Option.map_none, afterMark?_eq_none, List.prefix_concat_iff, not_or]
    refine ⟨fun same => ?_, found⟩
    have member : '\r' ∈ mark := by
      rw [same]
      exact List.mem_append_right text List.mem_cons_self
    exact absurd member (by decide)

theorem map_time_append_return (line : List UInt8) :
    (afterMark? (Utf8.decode (line ++ [carriageReturn]))).map time =
      (afterMark? (Utf8.decode line)).map time := by
  have decoded : Utf8.decode (line ++ [carriageReturn]) = Utf8.decode line ++ ['\r'] :=
    Utf8.decode_append_ascii line (by decide) []
  rw [decoded, afterMark?_append_return, Option.map_map]
  congr 1
  funext rest
  exact time_append_return rest

theorem times_returned (octets : List UInt8) :
    times (lines (returned octets)) = times (lines octets) := by
  induction octets using induction_on_lines with
  | last line whole => rw [returned_of_line whole]
  | more line rest whole ih =>
    have clean : lineFeed ∉ line ++ [carriageReturn] := by
      rw [List.mem_append, not_or]
      exact ⟨whole, by decide⟩
    rw [returned_append whole, lines_cons clean, lines_cons whole, times, times,
      List.filterMap_cons, List.filterMap_cons, map_time_append_return]
    unfold times at ih
    rw [ih]

theorem read_returned (octets : List UInt8) :
    read (Utf8.decode (returned octets)) = read (Utf8.decode octets) := by
  rw [read_decode, read_decode, times_returned]

theorem read_mark_append {rest : List UInt8} (whole : lineFeed ∉ rest) :
    read (Utf8.decode (markOctets ++ rest)) = time (Utf8.decode rest) := by
  have clean := lineFeed_not_mem_mark_append whole
  apply read_of_last
  rw [last?_eq_some_iff, IsLast, splitOn_decode, lines_of_line clean]
  exact ⟨[], [], by rw [← decode_mark_append]; rfl, by simp⟩

/-- Of the octets that a benchmark prints, the line that begins last with the mark decides. -/
theorem read_by_last_line (octets : List UInt8) :
    (read (Utf8.decode octets) = .error .missing ↔ ¬ ∃ offset, BeginsAt octets offset) ∧
    ((∃ offset, BeginsAt octets offset) → ∃ offset, LastBeginsAt octets offset) ∧
    (∀ offset, LastBeginsAt octets offset →
      read (Utf8.decode octets) = read (Utf8.decode (markOctets ++ behindMark octets offset)) ∧
      read (Utf8.decode octets) = time (Utf8.decode (behindMark octets offset))) ∧
    read (Utf8.decode (returned octets)) = read (Utf8.decode octets) := by
  refine ⟨read_eq_missing_iff, ?_, ?_, read_returned octets⟩
  · rintro ⟨offset, begins⟩
    exact exists_lastBeginsAt begins
  · intro offset last
    have found := read_of_last (last?_decode last)
    have whole : lineFeed ∉ behindMark octets offset := lineFeed_not_mem_line _
    have alone := read_mark_append whole
    exact ⟨found.trans alone.symm, found⟩

/-- A time line, the first two octets of a euro sign, and a time line without a numeral. -/
def garbled : List UInt8 :=
  Utf8.encode "time: 2\n".toList ++ [0xE2, 0x82] ++ Utf8.encode "\ntime: x\n\n".toList

theorem lastBeginsAt_garbled : LastBeginsAt garbled 11 := by
  refine ⟨by decide, fun later begins => ?_⟩
  have checked : ∀ later < garbled.length + 1, BeginsAt garbled later → later ≤ 11 := by decide
  exact checked later (Nat.lt_succ_of_le begins.le_length) begins

theorem read_garbled :
    LastBeginsAt garbled 11 ∧
      read (Utf8.decode garbled) = .error (.malformed ['x']) ∧
      read (Utf8.decode (returned garbled)) = .error (.malformed ['x']) := by
  obtain ⟨-, -, decides, same⟩ := read_by_last_line garbled
  have last := (decides 11 lastBeginsAt_garbled).2
  have faulty : time (Utf8.decode (behindMark garbled 11)) = .error (.malformed ['x']) := by
    rfl
  exact ⟨lastBeginsAt_garbled, last.trans faulty, same.trans (last.trans faulty)⟩

end TimeLine

end TimingSweep

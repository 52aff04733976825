import TimingSweep.Proofs.Escapes
import TimingSweep.Proofs.WrittenNumbers

/-!
# Scanning values

The text of a value is scanned as the events of the value, in any layout that puts nothing but
blanks between the tokens. The last token of a value may be a numeral, which only the character
behind it ends.

* `scans_literal`: a numeral is scanned to its end;
* `Ended.next`: what follows a value ends a numeral first;
* `scans_value`: a value is scanned as its events;
* `Consumer.read_write`: reading the text of a value is taking its events;
* `Consumer.acceptAll_list`: the events of a list are taken item by item.
-/

namespace TimingSweep.Json

/-! ## Numerals -/

theorem ascii_of_isDigit {c : Char} (digit : c.isDigit = true) : c.toNat < 0x80 := by
  have bounds := Char.isDigit_iff_toNat.mp digit
  have nine : '9'.toNat < 0x80 := by decide
  omega

/-- Only characters of ASCII stand in a numeral. -/
theorem ascii_of_next? {stage later : NumeralStage} {c : Char}
    (enters : stage.next? c = some later) : c.toNat < 0x80 := by
  by_cases digit : c.isDigit = true
  · exact ascii_of_isDigit digit
  · apply Nat.lt_of_not_le
    intro foreign
    have other : ∀ d : Char, d.toNat < 0x80 → c ≠ d := by
      rintro d ascii rfl
      omega
    have stuck : stage.next? c = none := by
      cases stage <;> simp [NumeralStage.next?, digit, other]
    rw [stuck] at enters
    cases enters

variable {enclosures : List Enclosure}

/-- The characters that a numeral goes on with. -/
theorem scans_run {stage later : NumeralStage} {text : List Char}
    (runs : stage.run? text = some later) (literal : List Char) :
    Scans ⟨enclosures, .numeral stage literal⟩ text []
      ⟨enclosures, .numeral later (text.reverse ++ literal)⟩ := by
  induction text generalizing stage literal with
  | nil =>
    cases runs
    exact Scans.nil _
  | cons c rest ih =>
    rw [NumeralStage.run?_cons, Option.bind_eq_some_iff] at runs
    obtain ⟨next, enters, runs⟩ := runs
    have ascii : c.toNat < 0x80 := ascii_of_next? enters
    have one : Scans ⟨enclosures, .numeral stage literal⟩ [c] []
        ⟨enclosures, .numeral next (c :: literal)⟩ := by
      have going : stage.endsBefore c = false := by simp [NumeralStage.endsBefore, enters]
      refine Scans.silent ascii ?_ fun strict => ?_
      · simp only [Scanner.settle, char_of_octet ascii, going]
        rfl
      · simp only [Scanner.advance, char_of_octet ascii, enters]
    rw [List.reverse_cons, List.append_assoc]
    exact one.append (ih runs _)

/-- The first digit of a numeral. -/
theorem scans_first_digit (enclosures : List Enclosure) {c : Char} (digit : c.isDigit = true)
    (mayClose : Bool) :
    ∃ stage, NumeralStage.next? .sign c = some stage ∧
      Scans ⟨enclosures, .value mayClose⟩ [c] [] ⟨enclosures, .numeral stage [c]⟩ := by
  have ascii := ascii_of_isDigit digit
  have other : ∀ d : Char, d.isDigit = false → c ≠ d := by
    rintro d letter rfl
    rw [digit] at letter
    cases letter
  have blank : Scanner.isBlank c = false := by
    simp [Scanner.isBlank, other]
  have closing : c ≠ ']' := other _ (by decide)
  refine ⟨if c = '0' then .zero else .whole, ?_, ?_⟩
  · simp only [NumeralStage.next?, digit, if_true]
    split <;> rfl
  · refine Scans.silent ascii rfl fun strict => ?_
    simp only [Scanner.advance, char_of_octet ascii, blank, closing, decide_false, Bool.and_false,
      Bool.false_eq_true, if_false]
    simp only [Scanner.openValue, other '"' (by decide), other '[' (by decide),
      other '\x7b' (by decide), other '-' (by decide), digit, if_false, if_true]
    split <;> rfl

/-- A numeral, with or without a minus. -/
theorem scans_literal (n : Numeral) {sign : List Char} (signed : sign = [] ∨ sign = ['-'])
    (mayClose : Bool) :
    ∃ stage : NumeralStage, stage.isComplete = true ∧
      Scans ⟨enclosures, .value mayClose⟩ (sign ++ n.literal) []
        ⟨enclosures, .numeral stage (sign ++ n.literal).reverse⟩ := by
  obtain ⟨stage, runs, complete⟩ := n.run?_literal
  refine ⟨stage, complete, ?_⟩
  rcases signed with rfl | rfl
  · obtain ⟨first, rest, whole, digit⟩ := n.exists_whole
    obtain ⟨begun, enters, opens⟩ := scans_first_digit enclosures digit mayClose
    have literal : n.literal = first :: (rest ++ (n.pointText ++ n.powerText)) := by
      rw [Numeral.literal, whole, List.cons_append]
    rw [literal, NumeralStage.run?_cons, enters, Option.bind_some] at runs
    rw [List.nil_append, literal, List.reverse_cons]
    exact opens.append (scans_run runs [first])
  · have minus : Scans ⟨enclosures, .value mayClose⟩ ['-'] [] ⟨enclosures, .numeral .sign ['-']⟩ :=
      Scans.silent (by decide) rfl fun _ => by cases mayClose <;> rfl
    rw [List.reverse_append]
    exact minus.append (scans_run runs ['-'])

theorem sign_cases (x : Binary64) : x.sign = [] ∨ x.sign = ['-'] := by
  unfold Binary64.sign
  split
  · exact Or.inr rfl
  · exact Or.inl rfl

/-! ## Values -/

/-- The scanner stands behind a value, or in a numeral that is complete but has not been told. -/
inductive Ended (enclosures : List Enclosure) : Scanner → List Event → Prop
  | settled : Ended enclosures (Scanner.after enclosures) []
  | numeral {stage : NumeralStage} {literal : List Char} (complete : stage.isComplete = true) :
    Ended enclosures ⟨enclosures, .numeral stage literal⟩ [.numeral literal.reverse]

/-- The text is scanned as a value with the events, but for a numeral at its end. -/
def ScansValue (enclosures : List Enclosure) (text : List Char) (events : List Event) : Prop :=
  ∀ mayClose, ∃ t begun rest, Scans ⟨enclosures, .value mayClose⟩ text begun t ∧
    Ended enclosures t rest ∧ begun ++ rest = events

/-- A character that ends every numeral. -/
def EndsNumeral (c : Char) : Prop :=
  c.toNat < 0x80 ∧ ∀ stage : NumeralStage, stage.isComplete = true → stage.endsBefore c = true

theorem endsNumeral_of_separator {c : Char}
    (separator : c ∈ [' ', '\n', '\t', '\r', ',', ']', '\x7d']) : EndsNumeral c := by
  have ascii : ∀ c ∈ [' ', '\n', '\t', '\r', ',', ']', '\x7d'], c.toNat < 0x80 := by simp
  refine ⟨ascii c separator, fun stage complete => ?_⟩
  cases stage with
  | zero | whole | fraction | exponent => exact List.all_eq_true.mp (by decide) c separator
  | sign | point | mark | markSign => cases complete

theorem endsNumeral_of_isBlank {c : Char} (blank : Scanner.isBlank c = true) : EndsNumeral c := by
  apply endsNumeral_of_separator
  simp only [Scanner.isBlank, Bool.or_eq_true, decide_eq_true_eq] at blank
  simp only [List.mem_cons]
  grind

theorem isGap_after (enclosures : List Enclosure) : (Scanner.after enclosures).phase.IsGap := by
  cases enclosures <;> trivial

theorem settle_after (enclosures : List Enclosure) (octet : UInt8) :
    (Scanner.after enclosures).settle octet = (none, Scanner.after enclosures) :=
  settle_of_gap (isGap_after enclosures) octet

/-- What follows a value ends a numeral first. -/
theorem Ended.next {t u : Scanner} {pending events : List Event}
    (ended : Ended enclosures t pending) {c : Char} {rest : List Char} (ends : EndsNumeral c)
    (scans : Scans (Scanner.after enclosures) (c :: rest) events u) :
    Scans t (c :: rest) (pending ++ events) u := by
  cases ended with
  | settled => exact scans
  | @numeral stage literal complete =>
    intro σ k state
    have octets := Utf8.encode_cons_ascii ends.1 rest
    have told : Scanner.settle ⟨enclosures, .numeral stage literal⟩ (UInt8.ofNat c.toNat) =
        (some (.numeral literal.reverse), Scanner.after enclosures) := by
      simp only [Scanner.settle, char_of_octet ends.1, ends.2 stage complete, if_true]
    have step : k.step (state, ⟨enclosures, .numeral stage literal⟩) (UInt8.ofNat c.toNat) =
        k.accept state (.numeral literal.reverse) >>= fun later =>
          k.step (later, Scanner.after enclosures) (UInt8.ofNat c.toNat) := by
      simp only [Consumer.step, told, settle_after, Consumer.take]
      rfl
    have fed : ∀ later, k.feed (later, Scanner.after enclosures) (Utf8.encode (c :: rest)) =
        k.step (later, Scanner.after enclosures) (UInt8.ofNat c.toNat) >>= fun here =>
          k.feed here (Utf8.encode rest) := fun later => by rw [octets]; rfl
    rw [octets]
    show k.step _ _ >>= (fun here => k.feed here (Utf8.encode rest)) =
      (k.accept state _ >>= fun later => k.acceptAll later events) >>= _
    rw [step, bind_assoc, bind_assoc]
    congr 1
    funext later
    rw [← fed, scans]

/-- A layout that puts nothing but blanks between the tokens. -/
structure Layout.IsBlank (layout : Layout) : Prop where
  line : ∀ depth, ∀ c ∈ layout.line depth, Scanner.isBlank c = true
  afterName : ∀ c ∈ layout.afterName, Scanner.isBlank c = true

theorem isBlank_compact : compact.IsBlank := ⟨fun _ _ => nofun, fun _ => nofun⟩

theorem isBlank_indented : indented.IsBlank := by
  constructor
  · intro depth c member
    rcases List.mem_cons.mp member with rfl | blank
    · rfl
    · rw [List.eq_of_mem_replicate blank]
      rfl
  · exact List.all_eq_true.mp (by decide)

namespace Value

mutual

/-- What the text of a value consists of. -/
def events : Value → List Event
  | .whole n => [.numeral (Nat.toDigits 10 n)]
  | .number x => [if x.isFinite then .numeral (numeral x) else .word .null]
  | .text s => [.text (Utf8.encode s.toList)]
  | .list [] => [.listBegin, .listEnd]
  | .list (item :: rest) => .listBegin :: (events item ++ itemEvents rest ++ [.listEnd])
  | .record [] => [.recordBegin, .recordEnd]
  | .record ((name, value) :: rest) =>
    .recordBegin :: .name (Utf8.encode name.toList) ::
      (events value ++ memberEvents rest ++ [.recordEnd])

/-- The items after the first, each behind a comma. -/
def itemEvents : List Value → List Event
  | [] => []
  | item :: rest => .comma :: (events item ++ itemEvents rest)

/-- The members after the first, each behind a comma. -/
def memberEvents : List (String × Value) → List Event
  | [] => []
  | (name, value) :: rest =>
    .comma :: .name (Utf8.encode name.toList) :: (events value ++ memberEvents rest)

end

/-- A value is a number, a text, or made of other values. -/
theorem induction {motive : Value → Prop} (whole : ∀ n, motive (.whole n))
    (number : ∀ x, motive (.number x)) (text : ∀ s, motive (.text s))
    (list : ∀ items, (∀ v ∈ items, motive v) → motive (.list items))
    (record : ∀ members, (∀ m ∈ members, motive m.2) → motive (.record members)) (v : Value) :
    motive v := by
  refine @Value.rec motive (fun items => ∀ v ∈ items, motive v)
    (fun members => ∀ m ∈ members, motive m.2) (fun m => motive m.2)
    whole number text list record ?_ ?_ ?_ ?_ ?_ v
  · simp
  · intro item rest first others
    exact List.forall_mem_cons.mpr ⟨first, others⟩
  · simp
  · intro m rest first others
    exact List.forall_mem_cons.mpr ⟨first, others⟩
  · intro name value h
    exact h

end Value

variable {layout : Layout}

theorem scans_whole (n : Nat) : ScansValue enclosures (Nat.toDigits 10 n)
    [.numeral (Nat.toDigits 10 n)] := by
  intro mayClose
  obtain ⟨numeral, literal, -⟩ := exists_numeral_toDigits n
  obtain ⟨stage, complete, scans⟩ := scans_literal numeral (Or.inl rfl) mayClose
  rw [List.nil_append, literal] at scans
  refine ⟨_, [], _, scans, .numeral complete, ?_⟩
  rw [List.reverse_reverse, List.nil_append]

theorem scans_null (mayClose : Bool) : Scans ⟨enclosures, .value mayClose⟩ "null".toList
    [.word .null] (Scanner.after enclosures) := by
  have opens : Scans ⟨enclosures, .value mayClose⟩ ['n'] []
      ⟨enclosures, .word .null ['u', 'l', 'l']⟩ :=
    Scans.silent (by decide) rfl fun _ => by cases mayClose <;> rfl
  have second : Scans ⟨enclosures, .word .null ['u', 'l', 'l']⟩ ['u'] []
      ⟨enclosures, .word .null ['l', 'l']⟩ := Scans.silent (by decide) rfl fun _ => rfl
  have third : Scans ⟨enclosures, .word .null ['l', 'l']⟩ ['l'] []
      ⟨enclosures, .word .null ['l']⟩ := Scans.silent (by decide) rfl fun _ => rfl
  have last : Scans ⟨enclosures, .word .null ['l']⟩ ['l'] [.word .null]
      (Scanner.after enclosures) := Scans.telling (by decide) rfl fun _ => rfl
  exact opens.append (second.append (third.append last))

theorem scans_number (x : Binary64) : ScansValue enclosures (numeral x)
    (Value.number x).events := by
  intro mayClose
  unfold Value.events
  cases finite : x.isFinite with
  | true =>
    obtain ⟨n, literal, -, -⟩ := exists_numeral finite
    obtain ⟨stage, complete, scans⟩ := scans_literal n (sign_cases x) mayClose
    rw [← literal] at scans
    refine ⟨_, [], _, scans, .numeral complete, ?_⟩
    rw [List.reverse_reverse, List.nil_append, if_pos rfl]
  | false =>
    have null : numeral x = "null".toList := by
      rw [numeral, finite]
      rfl
    exact ⟨_, _, [], null ▸ scans_null mayClose, .settled, rfl⟩

theorem Scans.of_eq {s t : Scanner} {text text' : List Char} {events events' : List Event}
    (scans : Scans s text events t) (h : text = text') (h' : events = events') :
    Scans s text' events' t := h ▸ h' ▸ scans

/-- Blanks before a character that ends every numeral still end it. -/
theorem Ended.next_line {t u : Scanner} {pending events : List Event}
    (ended : Ended enclosures t pending) {line : List Char}
    (blank : ∀ c ∈ line, Scanner.isBlank c = true) {c : Char} {rest : List Char}
    (ends : EndsNumeral c) (scans : Scans (Scanner.after enclosures) (c :: rest) events u) :
    Scans t (line ++ c :: rest) (pending ++ events) u := by
  have before : Scans (Scanner.after enclosures) line [] (Scanner.after enclosures) :=
    scans_blanks (isGap_after enclosures) blank
  cases line with
  | nil => exact ended.next ends scans
  | cons first line =>
    exact ended.next (endsNumeral_of_isBlank (blank first List.mem_cons_self))
      (before.append scans)

/-- The text of a value at any depth, in any enclosures. -/
def IsScanned (layout : Layout) (v : Value) : Prop :=
  ∀ depth enclosures, ScansValue enclosures (v.write layout depth) v.events

section Enclosed

variable (blank : layout.IsBlank) (depth : Nat)
include blank

theorem scans_line (phase : Phase) (gap : phase.IsGap) :
    Scans ⟨enclosures, phase⟩ (layout.line depth) [] ⟨enclosures, phase⟩ :=
  scans_blanks gap (blank.line depth)

/-- The items after the first, and the end of the list. -/
theorem scans_items {items : List Value} (scanned : ∀ v ∈ items, IsScanned layout v) {t : Scanner}
    {pending : List Event} (ended : Ended (.list :: enclosures) t pending) :
    Scans t (Value.writeItems layout (depth + 1) items ++ (layout.line depth ++ [']']))
      (pending ++ (Value.itemEvents items ++ [.listEnd])) (Scanner.after enclosures) := by
  induction items generalizing t pending with
  | nil =>
    have closes : Scans (Scanner.after (.list :: enclosures)) [']'] [.listEnd]
        (Scanner.after enclosures) := Scans.telling (by decide) rfl fun _ => rfl
    exact ended.next_line (blank.line depth) (endsNumeral_of_separator (by decide)) closes
  | cons item rest ih =>
    rw [List.forall_mem_cons] at scanned
    obtain ⟨later, begun, last, first, ended', split⟩ :=
      scanned.1 (depth + 1) (.list :: enclosures) false
    have comma : Scans (Scanner.after (.list :: enclosures)) [','] [.comma]
        ⟨.list :: enclosures, .value false⟩ := Scans.telling (by decide) rfl fun _ => rfl
    have scans := comma.append ((scans_line blank (depth + 1) (.value false) trivial).append
      (first.append (ih scanned.2 ended')))
    refine (ended.next (endsNumeral_of_separator (by decide)) scans).of_eq ?_ ?_
    · simp [Value.writeItems]
    · simp [Value.itemEvents, ← split]

omit depth in
theorem scans_list {items : List Value} (scanned : ∀ v ∈ items, IsScanned layout v) :
    IsScanned layout (.list items) := by
  intro depth enclosures mayClose
  have opens : Scans ⟨enclosures, .value mayClose⟩ ['['] [.listBegin]
      ⟨.list :: enclosures, .value true⟩ :=
    Scans.telling (by decide) rfl fun _ => by cases mayClose <;> rfl
  cases items with
  | nil =>
    have closes : Scans ⟨.list :: enclosures, .value true⟩ [']'] [.listEnd]
        (Scanner.after enclosures) := Scans.telling (by decide) rfl fun _ => rfl
    exact ⟨_, _, [], opens.append closes, .settled, rfl⟩
  | cons item rest =>
    rw [List.forall_mem_cons] at scanned
    obtain ⟨later, begun, last, first, ended, split⟩ :=
      scanned.1 (depth + 1) (.list :: enclosures) true
    have scans := opens.append ((scans_line blank (depth + 1) (.value true) trivial).append
      (first.append (scans_items blank depth scanned.2 ended)))
    refine ⟨_, _, [], scans.of_eq ?_ rfl, .settled, ?_⟩
    · simp [Value.write]
    · simp [Value.events, ← split]

/-- The name of a member, up to its value. -/
theorem scans_member (name : String) (mayClose : Bool) :
    Scans ⟨enclosures, .member mayClose⟩
      (layout.line depth ++ (quote name ++ ':' :: layout.afterName))
      [.name (Utf8.encode name.toList)] ⟨enclosures, .value false⟩ := by
  have colon : Scans ⟨enclosures, .colon⟩ [':'] [] ⟨enclosures, .value false⟩ :=
    Scans.silent (by decide) rfl fun _ => rfl
  have gap : (Phase.value false).IsGap := trivial
  have after : Scans ⟨enclosures, .value false⟩ layout.afterName [] ⟨enclosures, .value false⟩ :=
    scans_blanks gap blank.afterName
  exact (scans_line blank depth (.member mayClose) trivial).append
    ((scans_name name mayClose).append (colon.append after))

/-- The members after the first, and the end of the record. -/
theorem scans_members {members : List (String × Value)}
    (scanned : ∀ m ∈ members, IsScanned layout m.2) {t : Scanner} {pending : List Event}
    (ended : Ended (.record :: enclosures) t pending) :
    Scans t (Value.writeMembers layout (depth + 1) members ++ (layout.line depth ++ ['}']))
      (pending ++ (Value.memberEvents members ++ [.recordEnd])) (Scanner.after enclosures) := by
  induction members generalizing t pending with
  | nil =>
    have closes : Scans (Scanner.after (.record :: enclosures)) ['}'] [.recordEnd]
        (Scanner.after enclosures) := Scans.telling (by decide) rfl fun _ => rfl
    exact ended.next_line (blank.line depth) (endsNumeral_of_separator (by decide)) closes
  | cons member rest ih =>
    obtain ⟨name, value⟩ := member
    rw [List.forall_mem_cons] at scanned
    obtain ⟨later, begun, last, first, ended', split⟩ :=
      scanned.1 (depth + 1) (.record :: enclosures) false
    have comma : Scans (Scanner.after (.record :: enclosures)) [','] [.comma]
        ⟨.record :: enclosures, .member false⟩ := Scans.telling (by decide) rfl fun _ => rfl
    have scans := comma.append ((scans_member blank (depth + 1) name false).append
      (first.append (ih scanned.2 ended')))
    refine (ended.next (endsNumeral_of_separator (by decide)) scans).of_eq ?_ ?_
    · simp [Value.writeMembers]
    · simp [Value.memberEvents, ← split]

omit depth in
theorem scans_record {members : List (String × Value)}
    (scanned : ∀ m ∈ members, IsScanned layout m.2) : IsScanned layout (.record members) := by
  intro depth enclosures mayClose
  have opens : Scans ⟨enclosures, .value mayClose⟩ ['{'] [.recordBegin]
      ⟨.record :: enclosures, .member true⟩ :=
    Scans.telling (by decide) rfl fun _ => by cases mayClose <;> rfl
  cases members with
  | nil =>
    have closes : Scans ⟨.record :: enclosures, .member true⟩ ['}'] [.recordEnd]
        (Scanner.after enclosures) := Scans.telling (by decide) rfl fun _ => rfl
    exact ⟨_, _, [], opens.append closes, .settled, rfl⟩
  | cons member rest =>
    obtain ⟨name, value⟩ := member
    rw [List.forall_mem_cons] at scanned
    obtain ⟨later, begun, last, first, ended, split⟩ :=
      scanned.1 (depth + 1) (.record :: enclosures) false
    have scans := opens.append ((scans_member blank (depth + 1) name true).append
      (first.append (scans_members blank depth scanned.2 ended)))
    refine ⟨_, _, [], scans.of_eq ?_ rfl, .settled, ?_⟩
    · simp [Value.write]
    · simp [Value.events, ← split]

end Enclosed

/-- A value is scanned as its events. -/
theorem scans_value (blank : layout.IsBlank) (v : Value) : IsScanned layout v := by
  induction v using Value.induction with
  | whole n => exact fun _ _ => scans_whole n
  | number x => exact fun _ _ => scans_number x
  | text s =>
    intro depth enclosures mayClose
    exact ⟨_, _, [], scans_text s mayClose, .settled, rfl⟩
  | list items ih => exact scans_list blank ih
  | record members ih => exact scans_record blank ih

/-- Reading the text of a value is taking its events. -/
theorem Consumer.read_write {σ : Type} (k : Consumer σ) (start : σ) (blank : layout.IsBlank)
    (v : Value) : k.read start (Utf8.encode (v.write layout 0)) = k.acceptAll start v.events := by
  obtain ⟨t, begun, rest, scans, ended, split⟩ := scans_value blank v 0 [] false
  have fed : k.feed (start, Scanner.start) (Utf8.encode (v.write layout 0)) = _ :=
    scans σ k start
  rw [Consumer.read, fed, ← split, k.acceptAll_append, bind_assoc]
  congr 1
  funext state
  cases ended with
  | settled => rfl
  | @numeral stage literal complete =>
    show k.finish (state, ⟨[], .numeral stage literal⟩) = _
    simp only [Consumer.finish, Scanner.finish, complete, if_true, Consumer.take]
    rfl

/-- The octets of a record end with its closing bracket. -/
theorem exists_encode_record (layout : Layout) (members : List (String × Value)) :
    ∃ front, Utf8.encode (String.ofList ((Value.record members).write layout 0)).toList =
      front ++ Utf8.encode ['}'] := by
  have text : ∃ front, (Value.record members).write layout 0 = front ++ ['}'] := by
    cases members with
    | nil => exact ⟨['{'], rfl⟩
    | cons member rest =>
      obtain ⟨name, value⟩ := member
      refine ⟨'{' :: (layout.line 1 ++ quote name ++ ':' :: layout.afterName ++
        value.write layout 1 ++ Value.writeMembers layout 1 rest ++ layout.line 0), ?_⟩
      rw [Value.write, List.cons_append]
  obtain ⟨front, text⟩ := text
  refine ⟨Utf8.encode front, ?_⟩
  rw [String.toList_ofList, text]
  exact List.flatMap_append

/-! ## Lists of one kind -/

section Items

variable {σ α : Type} {k : Consumer σ} (write : α → Value) (inside : List α → σ) {items : List α}

/-- The items after the first are put before those that have been read. -/
theorem Consumer.acceptAll_items
    (comma : ∀ read, k.accept (inside read) .comma = .ok (inside read))
    (item : ∀ a ∈ items, ∀ read,
      k.acceptAll (inside read) (write a).events = .ok (inside (a :: read)))
    (read : List α) :
    k.acceptAll (inside read) (Value.itemEvents (items.map write)) =
      .ok (inside (items.reverse ++ read)) := by
  induction items generalizing read with
  | nil => rfl
  | cons a rest ih =>
    rw [List.forall_mem_cons] at item
    show k.acceptAll _ (.comma :: ((write a).events ++ Value.itemEvents (rest.map write))) = _
    rw [acceptAll_cons (comma read), acceptAll_append_of_ok (item.1 read), ih item.2,
      List.reverse_cons, List.append_assoc]
    rfl

/-- A list is taken item by item if each item leads from what has been read to one item more. -/
theorem Consumer.acceptAll_list {before : σ}
    (opens : k.accept before .listBegin = .ok (inside []))
    (comma : ∀ read, k.accept (inside read) .comma = .ok (inside read))
    (item : ∀ a ∈ items, ∀ read,
      k.acceptAll (inside read) (write a).events = .ok (inside (a :: read))) :
    k.acceptAll before (Value.list (items.map write)).events =
      k.accept (inside items.reverse) .listEnd := by
  cases items with
  | nil =>
    show k.acceptAll before [.listBegin, .listEnd] = _
    rw [acceptAll_cons opens, acceptAll_single]
    rfl
  | cons a rest =>
    rw [List.forall_mem_cons] at item
    show k.acceptAll before (.listBegin ::
      ((write a).events ++ Value.itemEvents (rest.map write) ++ [.listEnd])) = _
    rw [acceptAll_cons opens, List.append_assoc, acceptAll_append_of_ok (item.1 []),
      acceptAll_append_of_ok (acceptAll_items write inside comma item.2 [a]), acceptAll_single,
      List.reverse_cons]

end Items

end TimingSweep.Json

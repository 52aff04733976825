import TimingSweep.Proofs.CutTexts
import TimingSweep.Request.Reader

/-!
# Request documents

The compact JSON text of a request is read back as that request, whether it is accepted or not, and
no proper beginning of the text is read as anything: nothing in it is skipped, so it is truncated
wherever it is cut.

* `acceptsBrokenNumerals`: a size that breaks off is a size;
* `acceptAll_events`: the events of a request give its fields;
* `read_toJson`: a request is found again in its own text, and in no beginning of it.
-/

namespace TimingSweep.Request

open Json Json.Consumer

/-! ## Sizes -/

theorem ofDigitChars_le_append (first rest : List Char) :
    Nat.ofDigitChars 10 first 0 ≤ Nat.ofDigitChars 10 (first ++ rest) 0 := by
  rw [Nat.ofDigitChars_append, Nat.ofDigitChars_eq_ofDigitChars_zero (l := rest)]
  calc Nat.ofDigitChars 10 first 0
      ≤ 10 ^ rest.length * Nat.ofDigitChars 10 first 0 :=
        Nat.le_mul_of_pos_left _ (Nat.pow_pos (by decide))
    _ ≤ _ := Nat.le_add_right ..

theorem wholeNumber?_isSome_iff {literal : List Char} :
    (wholeNumber? literal).isSome = true ↔
      literal.all Char.isDigit = true ∧ Nat.ofDigitChars 10 literal 0 < 2 ^ 64 := by
  simp only [wholeNumber?]
  split
  · rename_i small
    rw [Bool.and_eq_true, decide_eq_true_eq] at small
    exact iff_of_true rfl small
  · rename_i large
    rw [Bool.and_eq_true, decide_eq_true_eq] at large
    exact iff_of_false (by decide) large

/-- The first digits of a size are a size. -/
theorem wholeNumber?_isSome_of_append {first rest : List Char}
    (whole : (wholeNumber? (first ++ rest)).isSome = true) :
    (wholeNumber? first).isSome = true := by
  rw [wholeNumber?_isSome_iff, List.all_append, Bool.and_eq_true] at whole
  rw [wholeNumber?_isSome_iff]
  exact ⟨whole.1.1, Nat.lt_of_le_of_lt (ofDigitChars_le_append first rest) whole.2⟩

theorem wholeNumber?_toDigits (size : UInt64) :
    wholeNumber? (Nat.toDigits 10 size.toNat) = some size := by
  simp only [wholeNumber?, Nat.ofDigitChars_ten_toDigits,
    List.all_eq_true.mpr (isDigit_toDigits size.toNat), size.toNat_lt, decide_true, Bool.and_self,
    if_true, UInt64.ofNat_toNat]

/-- No field is a numeral. -/
theorem acceptValue_numeral (r : Reading) (field : Field) (literal : List Char) :
    r.acceptValue field (.numeral literal) = .error (unwanted (.numeral literal)) := by
  cases field <;> rfl

theorem acceptItem_numeral (r : Reading) (literal : List Char) :
    ∃ fault, r.acceptItem (.numeral literal) = .error fault := by
  unfold Reading.acceptItem
  cases r.draft.missing? with
  | none => exact ⟨_, rfl⟩
  | some field => exact ⟨_, acceptValue_numeral r field literal⟩

/-- Only the list of sizes looks at a numeral, and a beginning of a size is a size. -/
theorem acceptsBrokenNumerals : consumer.AcceptsBrokenNumerals := by
  rintro ⟨named, draft, position⟩ first rest later accepted
  simp only [consumer, Reading.accept] at accepted ⊢
  cases position with
  | before | competitors => cases accepted
  | value field =>
    simp only [acceptValue_numeral] at accepted
    cases accepted
  | between =>
    cases named with
    | true => exact ⟨_, rfl⟩
    | false =>
      obtain ⟨fault, refused⟩ :=
        acceptItem_numeral ⟨false, draft, .between⟩ (first ++ rest)
      simp only [Bool.false_eq_true, if_false, refused] at accepted
      cases accepted
  | sizes read =>
    cases size : wholeNumber? (first ++ rest) with
    | none =>
      simp only [size] at accepted
      cases accepted
    | some value =>
      have all : (wholeNumber? (first ++ rest)).isSome = true := by rw [size, Option.isSome_some]
      have whole : (wholeNumber? first).isSome = true := wholeNumber?_isSome_of_append all
      obtain ⟨begun, found⟩ := Option.isSome_iff_exists.mp whole
      exact ⟨⟨named, draft, .sizes (begun :: read)⟩, by simp only [found]⟩
  | skipped | after => exact ⟨_, rfl⟩

/-! ## The events of a request -/

theorem text_encode (s : String) : text (Utf8.encode s.toList) = .ok s := by
  simp only [text, Utf8.decode?_encode, String.ofList_toList]

/-- Reads a request of which nothing is skipped. -/
def strictly : Json.Consumer Reading := consumer.within Reading.isStrict

theorem accept_strictly {r later : Reading} {event : Event} (accepted : r.accept event = .ok later)
    (strict : later.isStrict = true) : strictly.accept r event = .ok later :=
  accept_within_eq_ok_iff.mpr ⟨accepted, strict⟩

theorem accept_size (named : Bool) (d : Draft) (read : List UInt64) (size : UInt64) :
    strictly.accept ⟨named, d, .sizes read⟩ (.numeral (Nat.toDigits 10 size.toNat)) =
      .ok ⟨named, d, .sizes (size :: read)⟩ :=
  accept_strictly (by simp only [Reading.accept, wholeNumber?_toDigits]) rfl

theorem accept_competitor (named : Bool) (d : Draft) (read : List String) (label : String) :
    strictly.accept ⟨named, d, .competitors read⟩ (.text (Utf8.encode label.toList)) =
      .ok ⟨named, d, .competitors (label :: read)⟩ :=
  accept_strictly (by simp only [Reading.accept, text_encode]) rfl

theorem acceptAll_sizes (named : Bool) (d : Draft) (sizes : List UInt64) :
    strictly.acceptAll ⟨named, d, .value .sizes⟩
        (Value.list (sizes.map fun size => .whole size.toNat)).events =
      .ok ⟨named, { d with sizes := some sizes }, .between⟩ := by
  let inside (read : List UInt64) : Reading := ⟨named, d, .sizes read⟩
  rw [acceptAll_list (fun size : UInt64 => Value.whole size.toNat) inside
    (accept_strictly rfl rfl) (fun _ => accept_strictly rfl rfl) fun size _ read =>
      (acceptAll_single ..).trans (accept_size named d read size)]
  have closes : (inside sizes.reverse).accept .listEnd =
      .ok ⟨named, { d with sizes := some sizes.reverse.reverse }, .between⟩ := rfl
  rw [List.reverse_reverse] at closes
  exact accept_strictly closes rfl

theorem acceptAll_competitors (named : Bool) (d : Draft) (competitors : List String) :
    strictly.acceptAll ⟨named, d, .value .competitors⟩
        (Value.list (competitors.map .text)).events =
      .ok ⟨named, { d with competitors := some competitors }, .between⟩ := by
  let inside (read : List String) : Reading := ⟨named, d, .competitors read⟩
  rw [acceptAll_list Value.text inside (accept_strictly rfl rfl)
    (fun _ => accept_strictly rfl rfl) fun label _ read =>
      (acceptAll_single ..).trans (accept_competitor named d read label)]
  have closes : (inside competitors.reverse).accept .listEnd =
      .ok ⟨named, { d with competitors := some competitors.reverse.reverse }, .between⟩ := rfl
  rw [List.reverse_reverse] at closes
  exact accept_strictly closes rfl

/-- The name of a field that has not been read leads to its value. -/
theorem accept_name {name : String} (field : Field) (known : Field.ofName? name.toList = some field)
    {d : Draft} (missing : d.has field = false) :
    strictly.accept ⟨true, d, .between⟩ (.name (Utf8.encode name.toList)) =
      .ok ⟨true, d, .value field⟩ := by
  refine accept_strictly ?_ rfl
  simp only [Reading.accept, Reading.acceptMember, text_encode, known, missing, if_true]
  rfl

theorem accept_algorithm (d : Draft) (algorithm : String) :
    strictly.accept ⟨true, d, .value .algorithm⟩ (.text (Utf8.encode algorithm.toList)) =
      .ok ⟨true, { d with algorithm := some algorithm }, .between⟩ := by
  refine accept_strictly ?_ rfl
  simp only [Reading.accept, Reading.acceptValue, text_encode]
  rfl

/-- The events of a request give its fields, one after the other. -/
theorem acceptAll_events (r : Request) :
    strictly.acceptAll .start r.toJson.events =
      .ok ⟨true, ⟨some r.algorithm, some r.sizes, some r.competitors⟩, .after⟩ := by
  have opens : strictly.accept .start .recordBegin = .ok ⟨true, .empty, .between⟩ :=
    accept_strictly rfl rfl
  have comma (d : Draft) : strictly.accept ⟨true, d, .between⟩ .comma = .ok ⟨true, d, .between⟩ :=
    accept_strictly rfl rfl
  have closes : strictly.accept
      ⟨true, ⟨some r.algorithm, some r.sizes, some r.competitors⟩, .between⟩ .recordEnd =
      .ok ⟨true, ⟨some r.algorithm, some r.sizes, some r.competitors⟩, .after⟩ :=
    accept_strictly rfl rfl
  have events : r.toJson.events =
      .recordBegin :: .name (Utf8.encode "algorithm".toList) ::
        .text (Utf8.encode r.algorithm.toList) ::
        .comma :: .name (Utf8.encode "sizes".toList) ::
        ((Value.list (r.sizes.map fun size => .whole size.toNat)).events ++
        .comma :: .name (Utf8.encode "competitors".toList) ::
        ((Value.list (r.competitors.map .text)).events ++ [.recordEnd])) := by
    simp [toJson, Value.events, Value.memberEvents]
  rw [events, acceptAll_cons opens, acceptAll_cons (accept_name .algorithm rfl rfl),
    acceptAll_cons (accept_algorithm _ r.algorithm), acceptAll_cons (comma _),
    acceptAll_cons (accept_name .sizes rfl rfl),
    acceptAll_append_of_ok (acceptAll_sizes true _ r.sizes), acceptAll_cons (comma _),
    acceptAll_cons (accept_name .competitors rfl rfl),
    acceptAll_append_of_ok (acceptAll_competitors true _ r.competitors), acceptAll_single]
  exact closes

/-! ## The text of a request -/

/-- The octets of the compact text of a request. -/
def document (r : Request) : List UInt8 := Utf8.encode r.toJson.compactText.toList

theorem read_document_strictly (r : Request) : strictly.read .start r.document =
    .ok ⟨true, ⟨some r.algorithm, some r.sizes, some r.competitors⟩, .after⟩ := by
  rw [document, Value.compactText, String.toList_ofList,
    read_write strictly .start isBlank_compact]
  exact acceptAll_events r

/-- The last octet is the closing bracket. -/
theorem exists_document (r : Request) : ∃ front, r.document = front ++ [0x7D] :=
  exists_encode_record ..

theorem read_document (r : Request) : read r.document = .ok r := by
  have last : consumer.read .start r.document = _ :=
    read_of_within (show Reading.start.isStrict = true from rfl) (read_document_strictly r)
  rw [read, last]
  rfl

/-- The compact text of a request is read back as that request, with the same verdict, and every
proper beginning of the text is truncated. -/
theorem read_toJson (r : Request) :
    read r.document = .ok r ∧
    (read r.document).map check = .ok r.check ∧
    ∀ front rest, r.document = front ++ rest → rest ≠ [] → read front = .error .truncated := by
  have whole := read_document r
  refine ⟨whole, by rw [whole]; rfl, fun front rest cut more => ?_⟩
  obtain ⟨last, fed, -⟩ := read_eq_ok.mp (read_document_strictly r)
  obtain ⟨before, ends⟩ := exists_document r
  rw [ends] at fed cut
  have truncated : consumer.read .start front = .error .truncated :=
    read_of_cut acceptsBrokenNumerals (Or.inr rfl) rfl fed cut more
  rw [read, truncated]
  rfl

/-- A request that is refused: names that need escapes or are empty, a size of zero and the largest
size, repetitions. -/
def oddities : Request :=
  ⟨"\"\\\x01\u00e9\n", [0, 18446744073709551615, 0], ["", "tbb", "tbb"]⟩

theorem oddities_found_in_whole_text_only :
    read oddities.document = .ok oddities ∧
    (read oddities.document).map check = .ok (.error (.foreign .algorithm)) ∧
    ∀ n < oddities.document.length, read (oddities.document.take n) = .error .truncated := by
  obtain ⟨whole, verdict, cut⟩ := read_toJson oddities
  refine ⟨whole, verdict.trans (congrArg Except.ok (by rfl)), fun n short => ?_⟩
  refine cut _ (oddities.document.drop n) (List.take_append_drop n _).symm fun empty => ?_
  exact absurd (List.drop_eq_nil_iff.mp empty) (Nat.not_le_of_lt short)

end TimingSweep.Request

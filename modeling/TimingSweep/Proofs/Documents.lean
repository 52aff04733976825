import TimingSweep.Proofs.WrittenValues

/-!
# Reading values

`Value.read` reads a JSON text as a value: digits alone are a whole number, any other numeral the
double nearest to it. Words have no place in the values here.

* `acceptAll_events`: taking the events of a value is putting the value in its place;
* `Value.read_write`: what is written is read back, in any layout that puts blanks between tokens.
-/

namespace TimingSweep.Json

/-- The value of a numeral. -/
def Value.ofNumeral? (literal : List Char) : Option Value :=
  if literal.all Char.isDigit then some (.whole (Nat.ofDigitChars 10 literal 0))
  else (Decimal.read? literal).map fun (negative, decimal) =>
    .number (decimal.toBinary64 negative)

/-- What has been read within a bracket, last first; a member is named before its value comes. -/
inductive Frame where
  | items (read : List Value)
  | members (read : List (String × Value))
  | member (read : List (String × Value)) (name : String)

/-- The open brackets, innermost first, and the value once it is complete. -/
structure Assembly where
  frames : List Frame
  result : Option Value

namespace Assembly

def start : Assembly := ⟨[], none⟩

/-- Puts a complete value where the innermost bracket wants one. -/
def put (b : Assembly) (v : Value) : Except Fault Assembly :=
  match b.frames with
  | [] => .ok { b with result := some v }
  | .items read :: outer => .ok { b with frames := .items (v :: read) :: outer }
  | .member read name :: outer => .ok { b with frames := .members ((name, v) :: read) :: outer }
  | .members _ :: _ => .error .malformed

def accept (b : Assembly) : Event → Except Fault Assembly
  | .word _ => .error .mismatched
  | .numeral literal =>
    match Value.ofNumeral? literal with
    | some v => b.put v
    | none => .error .malformed
  | .text content =>
    match Utf8.decode? content with
    | some chars => b.put (.text (.ofList chars))
    | none => .error .malformed
  | .name content =>
    match b.frames, Utf8.decode? content with
    | .members read :: outer, some chars =>
      .ok { b with frames := .member read (.ofList chars) :: outer }
    | _, _ => .error .malformed
  | .listBegin => .ok { b with frames := .items [] :: b.frames }
  | .recordBegin => .ok { b with frames := .members [] :: b.frames }
  | .listEnd =>
    match b.frames with
    | .items read :: outer => put { b with frames := outer } (.list read.reverse)
    | _ => .error .malformed
  | .recordEnd =>
    match b.frames with
    | .members read :: outer => put { b with frames := outer } (.record read.reverse)
    | _ => .error .malformed
  | .comma => .ok b

def consumer : Consumer Assembly := ⟨fun _ => true, accept⟩

end Assembly

def Value.read (octets : List UInt8) : Except Fault Value := do
  let last ← Assembly.consumer.read .start octets
  match last.result with
  | some v => .ok v
  | none => .error .truncated

/-- All numbers in a value are finite. -/
inductive Value.IsFinite : Value → Prop
  | whole (n : Nat) : IsFinite (.whole n)
  | number {x : Binary64} (finite : x.isFinite = true) : IsFinite (.number x)
  | text (s : String) : IsFinite (.text s)
  | list {items : List Value} (each : ∀ v ∈ items, IsFinite v) : IsFinite (.list items)
  | record {members : List (String × Value)} (each : ∀ m ∈ members, IsFinite m.2) :
    IsFinite (.record members)

theorem ofNumeral?_toDigits (n : Nat) : Value.ofNumeral? (Nat.toDigits 10 n) = some (.whole n) := by
  rw [Value.ofNumeral?, if_pos (List.all_eq_true.mpr (isDigit_toDigits n)),
    Nat.ofDigitChars_ten_toDigits]

/-- A finite double is read from its numeral, bit for bit. -/
theorem ofNumeral?_numeral {x : Binary64} (finite : x.isFinite = true) :
    Value.ofNumeral? (numeral x) = some (.number x) := by
  obtain ⟨n, literal, notWhole, same⟩ := exists_numeral finite
  rw [Value.ofNumeral?, literal, n.not_all_digits notWhole, if_neg (by decide),
    n.read?_sign_append, Option.map_some]
  show some (Value.number (n.decimal.toBinary64 x.negative)) = _
  rw [same]

namespace Assembly

open Consumer (acceptAll_cons acceptAll_append_of_ok acceptAll_single)

/-- Taking the events of a value one at a time comes to putting the value. -/
def Assembles (v : Value) : Prop := ∀ b : Assembly, consumer.acceptAll b v.events = b.put v

theorem accept_name (name : String) (read : List (String × Value)) (outer : List Frame)
    (result : Option Value) :
    accept ⟨.members read :: outer, result⟩ (.name (Utf8.encode name.toList)) =
      .ok ⟨.member read name :: outer, result⟩ := by
  simp only [accept, Utf8.decode?_encode, String.ofList_toList]

theorem assembles_list {items : List Value} (each : ∀ v ∈ items, Assembles v) :
    Assembles (.list items) := by
  intro b
  let inside (read : List Value) : Assembly := ⟨.items read :: b.frames, b.result⟩
  have taken : consumer.acceptAll b (Value.list (items.map id)).events =
      consumer.accept (inside items.reverse) .listEnd :=
    Consumer.acceptAll_list id inside rfl (fun _ => rfl) fun v member _ => each v member _
  rw [List.map_id] at taken
  rw [taken]
  show put b (.list items.reverse.reverse) = _
  rw [List.reverse_reverse]

/-- The members after the first are put behind those that have been read. -/
theorem acceptAll_members {members : List (String × Value)} (each : ∀ m ∈ members, Assembles m.2)
    (read : List (String × Value)) (outer : List Frame) (result : Option Value) :
    consumer.acceptAll ⟨.members read :: outer, result⟩ (Value.memberEvents members) =
      .ok ⟨.members (members.reverse ++ read) :: outer, result⟩ := by
  induction members generalizing read with
  | nil => rfl
  | cons member rest ih =>
    obtain ⟨name, value⟩ := member
    rw [List.forall_mem_cons] at each
    show consumer.acceptAll _ (.comma :: .name (Utf8.encode name.toList) ::
      (value.events ++ Value.memberEvents rest)) = _
    rw [acceptAll_cons rfl, acceptAll_cons (accept_name name ..), acceptAll_append_of_ok (each.1 _),
      ih each.2, List.reverse_cons, List.append_assoc]
    rfl

theorem assembles_record {members : List (String × Value)} (each : ∀ m ∈ members, Assembles m.2) :
    Assembles (.record members) := by
  intro b
  cases members with
  | nil =>
    show consumer.acceptAll b [.recordBegin, .recordEnd] = _
    rw [acceptAll_cons rfl, acceptAll_single]
    rfl
  | cons member rest =>
    obtain ⟨name, value⟩ := member
    rw [List.forall_mem_cons] at each
    show consumer.acceptAll b (.recordBegin :: .name (Utf8.encode name.toList) ::
      (value.events ++ Value.memberEvents rest ++ [.recordEnd])) = _
    rw [acceptAll_cons rfl, acceptAll_cons (accept_name name ..), List.append_assoc,
      acceptAll_append_of_ok (each.1 _), acceptAll_append_of_ok (acceptAll_members each.2 ..),
      acceptAll_single]
    show put b (.record (rest.reverse ++ [(name, value)]).reverse) = _
    rw [List.reverse_append, List.reverse_reverse]
    rfl

/-- Taking the events of a value comes to putting the value, if all its numbers are finite. -/
theorem acceptAll_events {v : Value} (finite : v.IsFinite) : Assembles v := by
  induction finite with
  | whole n =>
    intro b
    show consumer.acceptAll b [.numeral (Nat.toDigits 10 n)] = _
    rw [acceptAll_single]
    simp only [consumer, accept, ofNumeral?_toDigits]
  | @number x finite =>
    intro b
    show consumer.acceptAll b [if x.isFinite then .numeral (numeral x) else .word .null] = _
    rw [acceptAll_single, if_pos finite]
    simp only [consumer, accept, ofNumeral?_numeral finite]
  | text s =>
    intro b
    show consumer.acceptAll b [.text (Utf8.encode s.toList)] = _
    rw [acceptAll_single]
    simp only [consumer, accept, Utf8.decode?_encode, String.ofList_toList]
  | list _ ih => exact assembles_list ih
  | record _ ih => exact assembles_record ih

end Assembly

/-- What is written is read back, in any layout that puts nothing but blanks between tokens. -/
theorem Value.read_write {layout : Layout} (blank : layout.IsBlank) {v : Value}
    (finite : v.IsFinite) : Value.read (Utf8.encode (v.write layout 0)) = .ok v := by
  rw [Value.read, Consumer.read_write _ _ blank, Assembly.acceptAll_events finite]
  rfl

end TimingSweep.Json

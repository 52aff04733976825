import TimingSweep.Proofs.WrittenValues

/-!
# Texts that are cut short

A text that is read to its closing bracket is too short wherever it is cut: inside a string, behind
a comma, or in the middle of a numeral, whose beginning is a numeral too but not the whole text.

* `accepts_of_feed_numeral`: a numeral under way is accepted as far as it has been read;
* `finish_of_cut`: no state on the way to a closing bracket is one to end in;
* `read_of_cut`: a proper beginning of a text that is read strictly throughout is truncated.
-/

namespace TimingSweep.Json

theorem bind_eq_ok_iff {ε α β : Type} {x : Except ε α} {f : α → Except ε β} {b : β} :
    x >>= f = .ok b ↔ ∃ a, x = .ok a ∧ f a = .ok b := by
  cases x with
  | error fault => simp [bind, Except.bind]
  | ok a => simp [bind, Except.bind]

/-- A bracket that closes a list or a record. -/
def Closes (octet : UInt8) : Prop := octet = 0x5D ∨ octet = 0x7D

theorem Closes.not_isBlank {octet : UInt8} (closes : Closes octet) :
    Scanner.isBlank (Char.ofNat octet.toNat) = false := by
  rcases closes with rfl | rfl <;> rfl

theorem Closes.next? {octet : UInt8} (closes : Closes octet) (stage : NumeralStage) :
    stage.next? (Char.ofNat octet.toNat) = none := by
  rcases closes with rfl | rfl <;> cases stage <;> rfl

namespace Consumer

variable {σ : Type} {k : Consumer σ}

/-! ## Consumers that stay inside -/

/-- Takes events like another consumer, but only as long as the states stay inside. -/
def within (k : Consumer σ) (inside : σ → Bool) : Consumer σ where
  strict := k.strict
  accept state event :=
    k.accept state event >>= fun later => if inside later then .ok later else .error .malformed

section Within

variable {inside : σ → Bool} {state later : σ}

theorem accept_within_eq_ok_iff {event : Event} :
    (k.within inside).accept state event = .ok later ↔
      k.accept state event = .ok later ∧ inside later = true := by
  unfold within
  simp only [bind_eq_ok_iff]
  constructor
  · rintro ⟨next, accepted, kept⟩
    split at kept
    · rename_i member
      cases kept
      exact ⟨accepted, member⟩
    · cases kept
  · rintro ⟨accepted, member⟩
    exact ⟨later, accepted, if_pos member⟩

theorem take_of_within (member : inside state = true) {event : Option Event}
    (taken : (k.within inside).take state event = .ok later) :
    k.take state event = .ok later ∧ inside later = true := by
  cases event with
  | none =>
    cases taken
    exact ⟨rfl, member⟩
  | some event => exact accept_within_eq_ok_iff.mp taken

end Within

/-- An octet is read: a numeral may end before it, and it may complete a token. -/
theorem step_eq_ok_iff {here next : σ × Scanner} {octet : UInt8} :
    k.step here octet = .ok next ↔ ∃ middle event,
      k.take here.1 (here.2.settle octet).1 = .ok middle ∧
      (here.2.settle octet).2.advance (k.strict middle) octet = .ok (event, next.2) ∧
      k.take middle event = .ok next.1 := by
  obtain ⟨state, t⟩ := next
  simp only [step, bind_eq_ok_iff]
  constructor
  · rintro ⟨middle, taken, ⟨event, u⟩, advanced, last, told, same⟩
    cases same
    exact ⟨middle, event, taken, advanced, told⟩
  · rintro ⟨middle, event, taken, advanced, told⟩
    exact ⟨middle, taken, (event, t), advanced, state, told, rfl⟩

theorem feed_cons_eq_ok_iff {here last : σ × Scanner} {octet : UInt8} {rest : List UInt8} :
    k.feed here (octet :: rest) = .ok last ↔
      ∃ next, k.step here octet = .ok next ∧ k.feed next rest = .ok last := by
  rw [feed, List.foldlM_cons]
  exact bind_eq_ok_iff

theorem feed_of_within {inside : σ → Bool} {here last : σ × Scanner}
    (member : inside here.1 = true) {octets : List UInt8}
    (fed : (k.within inside).feed here octets = .ok last) :
    k.feed here octets = .ok last ∧ inside last.1 = true := by
  induction octets generalizing here with
  | nil =>
    cases fed
    exact ⟨rfl, member⟩
  | cons octet rest ih =>
    obtain ⟨next, stepped, fed⟩ := feed_cons_eq_ok_iff.mp fed
    obtain ⟨middle, event, ended, advanced, told⟩ := step_eq_ok_iff.mp stepped
    obtain ⟨ended, inside_middle⟩ := take_of_within member ended
    obtain ⟨told, inside_next⟩ := take_of_within inside_middle told
    obtain ⟨fed, inside_last⟩ := ih inside_next fed
    have stepped : k.step here octet = .ok next :=
      step_eq_ok_iff.mpr ⟨middle, event, ended, advanced, told⟩
    exact ⟨feed_cons_eq_ok_iff.mpr ⟨next, stepped, fed⟩, inside_last⟩

theorem read_of_within {inside : σ → Bool} {start result : σ} (member : inside start = true)
    {octets : List UInt8} (read : (k.within inside).read start octets = .ok result) :
    k.read start octets = .ok result := by
  obtain ⟨last, fed, ended⟩ := read_eq_ok.mp read
  obtain ⟨fed, member⟩ := feed_of_within member fed
  refine read_eq_ok.mpr ⟨last, fed, ?_⟩
  simp only [finish, bind_eq_ok_iff] at ended ⊢
  obtain ⟨state, taken, complete⟩ := ended
  exact ⟨state, (take_of_within member taken).1, complete⟩

/-! ## Cuts -/

/-- A numeral that is accepted is also accepted where it breaks off. -/
def AcceptsBrokenNumerals (k : Consumer σ) : Prop :=
  ∀ state first rest later, k.accept state (.numeral (first ++ rest)) = .ok later →
    ∃ later, k.accept state (.numeral first) = .ok later

variable {state : σ} {last : σ × Scanner} {closing : UInt8} {front : List UInt8}

/-- Behind a complete value only blanks are read. -/
theorem not_feed_done {enclosures : List Enclosure} (closes : Closes closing) :
    k.feed (state, ⟨enclosures, .done⟩) (front ++ [closing]) ≠ .ok last := by
  have read : ∀ octet next, k.step (state, ⟨enclosures, .done⟩) octet = .ok next →
      Scanner.isBlank (Char.ofNat octet.toNat) = true ∧ next = (state, ⟨enclosures, .done⟩) := by
    intro octet next stepped
    obtain ⟨middle, event, ended, advanced, told⟩ := step_eq_ok_iff.mp stepped
    cases ended
    simp only [Scanner.settle, Scanner.advance] at advanced
    split at advanced
    · rename_i blank
      obtain ⟨rfl, same⟩ := Prod.mk.inj (Except.ok.inj advanced)
      cases told
      exact ⟨blank, Prod.ext rfl same.symm⟩
    · cases advanced
  intro fed
  induction front with
  | nil =>
    obtain ⟨next, stepped, -⟩ := feed_cons_eq_ok_iff.mp fed
    have blank := (read closing next stepped).1
    rw [closes.not_isBlank] at blank
    cases blank
  | cons octet front ih =>
    obtain ⟨next, stepped, fed⟩ := feed_cons_eq_ok_iff.mp fed
    rw [(read octet next stepped).2] at fed
    exact ih fed

/-- The octet behind a part of a numeral ends the numeral or goes on with it. -/
theorem step_numeral {enclosures : List Enclosure} {stage : NumeralStage} {literal : List Char}
    {octet : UInt8} {next : σ × Scanner}
    (stepped : k.step (state, ⟨enclosures, .numeral stage literal⟩) octet = .ok next) :
    (∃ later, k.accept state (.numeral literal.reverse) = .ok later ∧
      k.step (later, Scanner.after enclosures) octet = .ok next) ∨
    ∃ stage', stage.next? (Char.ofNat octet.toNat) = some stage' ∧
      next = (state, ⟨enclosures, .numeral stage' (Char.ofNat octet.toNat :: literal)⟩) := by
  obtain ⟨middle, event, ended, advanced, told⟩ := step_eq_ok_iff.mp stepped
  simp only [Scanner.settle] at ended advanced
  split at advanced
  · rename_i ends
    rw [if_pos ends] at ended
    left
    refine ⟨middle, ended, step_eq_ok_iff.mpr ⟨middle, event, ?_, ?_, told⟩⟩
    · rw [settle_after]
      rfl
    · rw [settle_after]
      exact advanced
  · rename_i goes_on
    rw [if_neg goes_on] at ended
    cases ended
    right
    simp only [Scanner.advance] at advanced
    split at advanced
    · rename_i stage' follows
      obtain ⟨rfl, same⟩ := Prod.mk.inj (Except.ok.inj advanced)
      cases told
      exact ⟨stage', follows, Prod.ext rfl same.symm⟩
    · cases advanced

/-- A numeral on the way to a closing bracket stands in an enclosure and is accepted as far as it
has been read. -/
theorem accepts_of_feed_numeral (broken : k.AcceptsBrokenNumerals) (closes : Closes closing)
    {enclosures : List Enclosure} {stage : NumeralStage} {literal : List Char}
    (fed : k.feed (state, ⟨enclosures, .numeral stage literal⟩) (front ++ [closing]) = .ok last) :
    enclosures ≠ [] ∧ ∃ later, k.accept state (.numeral literal.reverse) = .ok later := by
  -- Where the numeral ends, what comes behind it is fed to the state after a value.
  have enclosed : ∀ (octet : UInt8) (rest : List UInt8) (next : σ × Scanner) (later : σ),
      (∃ before, octet :: rest = before ++ [closing]) →
      k.step (later, Scanner.after enclosures) octet = .ok next → k.feed next rest = .ok last →
      enclosures ≠ [] := by
    rintro octet rest next later ⟨before, whole⟩ stepped behind rfl
    have all := feed_cons_eq_ok_iff.mpr ⟨next, stepped, behind⟩
    rw [whole] at all
    exact not_feed_done closes all
  induction front generalizing stage literal with
  | nil =>
    obtain ⟨next, stepped, fed⟩ := feed_cons_eq_ok_iff.mp fed
    rcases step_numeral stepped with ⟨later, accepted, stepped⟩ | ⟨stage', follows, -⟩
    · exact ⟨enclosed closing [] next later ⟨[], rfl⟩ stepped fed, later, accepted⟩
    · rw [closes.next?] at follows
      cases follows
  | cons octet front ih =>
    obtain ⟨next, stepped, fed⟩ := feed_cons_eq_ok_iff.mp fed
    rcases step_numeral stepped with ⟨later, accepted, stepped⟩ | ⟨stage', -, rfl⟩
    · exact ⟨enclosed octet _ next later ⟨octet :: front, rfl⟩ stepped fed, later, accepted⟩
    · obtain ⟨inner, later, accepted⟩ := ih fed
      rw [List.reverse_cons] at accepted
      exact ⟨inner, broken state _ _ later accepted⟩

/-- A text that goes on to a closing bracket does not end here. -/
theorem finish_of_cut (broken : k.AcceptsBrokenNumerals) (closes : Closes closing) {s : Scanner}
    (strict : k.strict state = true)
    (fed : k.feed (state, s) (front ++ [closing]) = .ok last) :
    k.finish (state, s) = .error .truncated := by
  obtain ⟨enclosures, phase⟩ := s
  cases phase with
  | done => exact absurd fed (not_feed_done closes)
  | numeral stage literal =>
    cases complete : stage.isComplete with
    | false => simp [finish, Scanner.finish, complete, strict, take, bind, Except.bind]
    | true =>
      obtain ⟨enclosed, later, accepted⟩ := accepts_of_feed_numeral broken closes fed
      simp [finish, Scanner.finish, complete, enclosed, take, accepted, bind, Except.bind]
  | value | member | colon | next | word | text => rfl

/-- A text that is read strictly up to its closing bracket is truncated wherever it is cut. -/
theorem read_of_cut (broken : k.AcceptsBrokenNumerals) (closes : Closes closing) {start : σ}
    (strict : k.strict start = true) {text : List UInt8}
    (fed : (k.within k.strict).feed (start, Scanner.start) (text ++ [closing]) = .ok last)
    {rest : List UInt8} (cut : text ++ [closing] = front ++ rest) (more : rest ≠ []) :
    k.read start front = .error .truncated := by
  obtain ⟨rest, octet, rfl⟩ := (List.eq_nil_or_concat rest).resolve_left more
  rw [List.concat_eq_append, ← List.append_assoc] at cut
  obtain ⟨rfl, same⟩ := List.append_inj' cut rfl
  cases same
  rw [List.append_assoc, feed_append, bind_eq_ok_iff] at fed
  obtain ⟨here, before, behind⟩ := fed
  obtain ⟨before, inside⟩ := feed_of_within strict before
  obtain ⟨behind, -⟩ := feed_of_within inside behind
  rw [read, before]
  exact finish_of_cut broken closes inside behind

end Consumer

end TimingSweep.Json

import TimingSweep.Json.Scanner
import TimingSweep.Proofs.Decoding

/-!
# Scanning text

A text takes a scanner from one state to another and gives events on the way, whatever takes the
events. Texts follow one another, so a document is scanned token by token.

* `Scans.append`: what one text leaves, the next goes on from;
* `scans_blanks`: blanks between tokens change nothing.
-/

namespace TimingSweep.Json

namespace Consumer

variable {σ : Type}

def acceptAll (k : Consumer σ) (state : σ) (events : List Event) : Except Fault σ :=
  events.foldlM k.accept state

theorem acceptAll_append (k : Consumer σ) (state : σ) (first rest : List Event) :
    k.acceptAll state (first ++ rest) =
      k.acceptAll state first >>= fun later => k.acceptAll later rest :=
  List.foldlM_append

variable {k : Consumer σ} {state later : σ}

theorem acceptAll_cons {event : Event} (accepted : k.accept state event = .ok later)
    (rest : List Event) : k.acceptAll state (event :: rest) = k.acceptAll later rest := by
  show k.accept state event >>= (fun later => k.acceptAll later rest) = _
  rw [accepted]
  rfl

theorem acceptAll_append_of_ok {first : List Event} (accepted : k.acceptAll state first = .ok later)
    (rest : List Event) : k.acceptAll state (first ++ rest) = k.acceptAll later rest := by
  rw [acceptAll_append, accepted]
  rfl

theorem acceptAll_single (k : Consumer σ) (state : σ) (event : Event) :
    k.acceptAll state [event] = k.accept state event := by
  show k.accept state event >>= (fun later => k.acceptAll later []) = _
  cases k.accept state event <;> rfl

end Consumer

/-- The text takes a scanner from one state to another and gives the events, whoever takes them. -/
def Scans (s : Scanner) (text : List Char) (events : List Event) (t : Scanner) : Prop :=
  ∀ (σ : Type) (k : Consumer σ) (state : σ), k.feed (state, s) (Utf8.encode text) =
    k.acceptAll state events >>= fun later => .ok (later, t)

namespace Scans

variable {s t u : Scanner} {text more : List Char} {events later : List Event}

theorem nil (s : Scanner) : Scans s [] [] s := fun _ _ _ => rfl

theorem append (first : Scans s text events t) (second : Scans t more later u) :
    Scans s (text ++ more) (events ++ later) u := by
  intro σ k state
  have encoded : Utf8.encode (text ++ more) = Utf8.encode text ++ Utf8.encode more :=
    List.flatMap_append
  rw [encoded, Consumer.feed_append, first σ k state, k.acceptAll_append, bind_assoc, bind_assoc]
  congr 1
  funext middle
  exact second σ k middle

end Scans

/-- The octet of a character of ASCII is that character to the scanner. -/
theorem char_of_octet {c : Char} (ascii : c.toNat < 0x80) :
    Char.ofNat (UInt8.ofNat c.toNat).toNat = c := by
  rw [Utf8.toNat_ofNat_ascii ascii, Char.ofNat_toNat]

theorem Scans.one {s t : Scanner} {c : Char} {event : Option Event} (ascii : c.toNat < 0x80)
    (alone : s.settle (UInt8.ofNat c.toNat) = (none, s))
    (advances : ∀ strict, s.advance strict (UInt8.ofNat c.toNat) = .ok (event, t)) :
    Scans s [c] event.toList t := by
  intro σ k state
  have octets : Utf8.encode [c] = [UInt8.ofNat c.toNat] := Utf8.encode_cons_ascii ascii []
  rw [octets]
  show k.step (state, s) _ >>= _ = _
  simp only [Consumer.step, alone, advances, Consumer.take]
  cases event with
  | none => rfl
  | some event =>
    show (k.accept state event >>= fun later => _) >>= _ = k.accept state event >>= _ >>= _
    cases k.accept state event <;> rfl

/-- A character that ends no numeral and completes no token. -/
theorem Scans.silent {s t : Scanner} {c : Char} (ascii : c.toNat < 0x80)
    (alone : s.settle (UInt8.ofNat c.toNat) = (none, s))
    (advances : ∀ strict, s.advance strict (UInt8.ofNat c.toNat) = .ok (none, t)) :
    Scans s [c] [] t := Scans.one ascii alone advances

/-- A character that ends no numeral and completes a token. -/
theorem Scans.telling {s t : Scanner} {c : Char} {event : Event} (ascii : c.toNat < 0x80)
    (alone : s.settle (UInt8.ofNat c.toNat) = (none, s))
    (advances : ∀ strict, s.advance strict (UInt8.ofNat c.toNat) = .ok (some event, t)) :
    Scans s [c] [event] t := Scans.one ascii alone advances

/-- A phase between tokens, in which blanks are passed over. -/
def Phase.IsGap : Phase → Prop
  | .value _ | .member _ | .colon | .next | .done => True
  | .word .. | .numeral .. | .text .. => False

theorem ascii_of_isBlank {c : Char} (blank : Scanner.isBlank c = true) : c.toNat < 0x80 := by
  simp only [Scanner.isBlank, Bool.or_eq_true, decide_eq_true_eq] at blank
  rcases blank with ((rfl | rfl) | rfl) | rfl <;> decide

theorem settle_of_gap {enclosures : List Enclosure} {phase : Phase} (gap : phase.IsGap)
    (octet : UInt8) : Scanner.settle ⟨enclosures, phase⟩ octet = (none, ⟨enclosures, phase⟩) := by
  cases phase with
  | value | member | colon | next | done => rfl
  | word | numeral | text => exact gap.elim

theorem scans_blank {enclosures : List Enclosure} {phase : Phase} (gap : phase.IsGap) {c : Char}
    (blank : Scanner.isBlank c = true) : Scans ⟨enclosures, phase⟩ [c] [] ⟨enclosures, phase⟩ := by
  have ascii := ascii_of_isBlank blank
  refine Scans.silent ascii (settle_of_gap gap _) fun strict => ?_
  cases phase with
  | value | member | colon | next | done =>
    simp only [Scanner.advance, char_of_octet ascii, blank, if_true]
  | word | numeral | text => exact gap.elim

theorem scans_blanks {enclosures : List Enclosure} {phase : Phase} (gap : phase.IsGap)
    {text : List Char} (blank : ∀ c ∈ text, Scanner.isBlank c = true) :
    Scans ⟨enclosures, phase⟩ text [] ⟨enclosures, phase⟩ := by
  induction text with
  | nil => exact Scans.nil _
  | cons c rest ih =>
    rw [List.forall_mem_cons] at blank
    exact (scans_blank gap blank.1).append (ih blank.2)

end TimingSweep.Json

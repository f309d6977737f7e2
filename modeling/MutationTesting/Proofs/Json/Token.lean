import Mathlib.Tactic.IntervalCases
import MutationTesting.Json.Token
import MutationTesting.Json.Writer
/-!
# The tokens of what is written

A written string is read up to its own closing quote, because every quote, backslash and control
character in it is escaped. A written number is read to its end where no character follows that
could continue it. All other tokens end by themselves, so a text is cut into tokens piece by piece,
and only the end of a number has to be watched.

## Main definitions

* `Token.Cuts` — an input and its tokens
* `Token.Stops` — an input that does not continue a number
* `Token.Spells` — a text that is cut into tokens, whatever follows it
* `Number.isWellFormed` — the numbers that have a literal

## Main results

* `Token.Cuts.scan`, `Token.Spells.scan`
* `Token.takeString?_escape` — a string up to its closing quote
* `Token.takeNumber?_numberText` — a number up to its end
* `Token.Spells.append_cons`, `Token.Spells.quote_append`
-/

namespace MutationTesting

namespace Token

/-! ### Cutting without fuel -/

/-- The input is cut into the tokens. -/
inductive Cuts : Symbols → List Token → Prop where
  | nil : Cuts [] []
  | space {c : Char} {rest : Symbols} {tokens : List Token} (hspace : isSpace c = true)
      (h : Cuts rest tokens) : Cuts (some c :: rest) tokens
  | token {c : Char} {input rest : Symbols} {token : Token} {tokens : List Token}
      (hspace : isSpace c = false) (htake : take? (some c :: input) = some (token, rest))
      (hshorter : rest.length ≤ input.length) (h : Cuts rest tokens) :
      Cuts (some c :: input) (token :: tokens)

theorem Cuts.scanFrom {input : Symbols} {tokens : List Token} (h : Cuts input tokens)
    (done : List Token) {fuel : Nat} (hfuel : input.length ≤ fuel) :
    scanFrom done fuel input = some (done.reverse ++ tokens) := by
  induction h generalizing done fuel with
  | nil => rw [Token.scanFrom, List.append_nil]
  | @space c rest tokens hspace _ ih =>
    obtain ⟨fuel, rfl⟩ : ∃ n, fuel = n + 1 := ⟨fuel - 1, by simp at hfuel; omega⟩
    rw [Token.scanFrom, Option.any_some, if_pos hspace]
    exact ih done (Nat.le_of_succ_le_succ hfuel)
  | @token c input rest token tokens hspace htake hshorter _ ih =>
    obtain ⟨fuel, rfl⟩ : ∃ n, fuel = n + 1 := ⟨fuel - 1, by simp at hfuel; omega⟩
    have hrest : rest.length ≤ fuel := hshorter.trans (Nat.le_of_succ_le_succ hfuel)
    rw [Token.scanFrom, Option.any_some, if_neg (Bool.not_eq_true _ ▸ hspace)]
    simp only [htake]
    rw [ih (token :: done) hrest, List.reverse_cons, List.append_assoc, List.singleton_append]

/-- The tokens of an input. -/
theorem Cuts.scan {input : Symbols} {tokens : List Token} (h : Cuts input tokens) :
    scan input = some tokens :=
  h.scanFrom [] le_rfl

/-! ### Texts and their tokens -/

/-- The character may stand in a number behind its first digit. -/
def continuesNumber (c : Char) : Bool :=
  (Decimal.digitValue? c).isSome || c = '.' || c = 'e' || c = 'E'

/-- The input does not begin with a character that continues a number. -/
def Stops (input : Symbols) : Prop :=
  ∀ c rest, input = some c :: rest → continuesNumber c = false

/-- Before any input that does not continue a number, the text is cut into the tokens. -/
def Spells (text : List Char) (tokens : List Token) : Prop :=
  ∀ ⦃rest : Symbols⦄ ⦃more : List Token⦄, Stops rest → Cuts rest more →
    Cuts (text.map some ++ rest) (tokens ++ more)

theorem stops_nil : Stops [] := nofun

theorem stops_cons {c : Char} (hc : continuesNumber c = false) (rest : Symbols) :
    Stops (some c :: rest) := by
  rintro c' rest' h
  obtain ⟨hc', -⟩ := List.cons.inj h
  rwa [← Option.some.inj hc']

variable {text text' : List Char} {tokens tokens' : List Token}

/-- The tokens of a whole text. -/
theorem Spells.scan (h : Spells text tokens) : Token.scan (text.map some) = some tokens := by
  have hcuts := (h stops_nil .nil).scan
  rwa [List.append_nil, List.append_nil] at hcuts

theorem spells_nil : Spells [] [] := fun _ _ _ h => h

/-- A space before a text. -/
theorem Spells.space (h : Spells text tokens) {c : Char} (hspace : isSpace c = true) :
    Spells (c :: text) tokens :=
  fun _ _ hstops hcuts => .space hspace (h hstops hcuts)

/-- A token that ends by itself before a text. -/
theorem Spells.cons (h : Spells text tokens) {c : Char} (first : List Char) {token : Token}
    (hspace : isSpace c = false)
    (htake : ∀ rest, take? (some c :: (first.map some ++ rest)) = some (token, rest)) :
    Spells (c :: (first ++ text)) (token :: tokens) := by
  intro rest more hstops hcuts
  have hmap : (c :: (first ++ text)).map some ++ rest =
      some c :: (first.map some ++ (text.map some ++ rest)) := by simp
  rw [hmap]
  exact .token hspace (htake _) (by simp) (h hstops hcuts)

/-- A mark before a text. -/
theorem Spells.mark (h : Spells text tokens) {c : Char} {token : Token}
    (hspace : isSpace c = false) (htake : ∀ rest, take? (some c :: rest) = some (token, rest)) :
    Spells (c :: text) (token :: tokens) :=
  h.cons [] hspace htake

/-- A text before one that does not continue a number. -/
theorem Spells.append_cons {c : Char} (h : Spells text tokens) (h' : Spells (c :: text') tokens')
    (hc : continuesNumber c = false) : Spells (text ++ c :: text') (tokens ++ tokens') := by
  intro rest more hrest hcuts
  rw [List.map_append, List.append_assoc, List.append_assoc]
  exact h (stops_cons hc _) (h' hrest hcuts)

/-! ### Strings -/

section Strings

open Decimal

theorem hexValue?_hexChar : ∀ d < 16, hexValue? (hexChar d) = some d := by decide

theorem paddedHex_of_lt {n : Nat} (h : n < 256) :
    paddedHex 4 n = ['0', '0', hexChar (n / 16), hexChar (n % 16)] := by
  rw [paddedHex, hexText]
  split
  · next hlt =>
    rw [Nat.div_eq_of_lt hlt, Nat.mod_eq_of_lt hlt]
    rfl
  · rw [hexText, if_pos (Nat.div_lt_of_lt_mul h)]
    rfl

theorem hex4?_paddedHex {n : Nat} (h : n < 256) :
    hex4? '0' '0' (hexChar (n / 16)) (hexChar (n % 16)) = some n := by
  have hhigh := hexValue?_hexChar (n / 16) (Nat.div_lt_of_lt_mul h)
  have hlow := hexValue?_hexChar (n % 16) (Nat.mod_lt n (by decide))
  have hzero : hexValue? '0' = some 0 := by decide
  simp only [hex4?, hhigh, hlow, hzero, Option.bind_eq_bind, Option.bind_some, Option.some.injEq]
  omega

/-- A character inside a string literal is read back. -/
theorem takeString?_escape (c : Char) (units : List (Option Nat)) (rest : Symbols) :
    takeString? units ((Json.escape c).map some ++ rest) =
      takeString? (some c.toNat :: units) rest := by
  unfold Json.escape
  split
  iterate 7 rfl
  next hquote hslash _ _ _ _ _ =>
  split
  · next hcontrol =>
    have hc : c.toNat < 256 := Nat.lt_trans hcontrol (by decide)
    rw [paddedHex_of_lt hc]
    simp [takeString?, hex4?_paddedHex hc]
  · next hplain =>
    rw [List.map_singleton, List.singleton_append, takeString?.eq_def]
    simp only [if_neg hquote, if_neg hslash, if_neg hplain]

/-- **A string is read up to its closing quote.** -/
theorem takeString?_quote (cs : List Char) (units : List (Option Nat)) (rest : Symbols) :
    takeString? units ((cs.flatMap Json.escape).map some ++ some '"' :: rest) =
      some (units.reverse ++ cs.map (some ·.toNat), rest) := by
  induction cs generalizing units with
  | nil =>
    rw [List.flatMap_nil, List.map_nil, List.nil_append, takeString?.eq_def, List.map_nil,
      List.append_nil]
    simp only [if_true]
  | cons c cs ih =>
    rw [List.flatMap_cons, List.map_append, List.append_assoc, takeString?_escape, ih]
    simp

theorem allSome?_map (ns : List Nat) : allSome? (ns.map some) = some ns := by
  induction ns with
  | nil => rfl
  | cons n ns ih => rw [List.map_cons, allSome?, ih, Option.map_some]

/-- No character is half of a pair. -/
theorem text?_map_toNat (cs : List Char) : Utf16.text? (cs.map (·.toNat)) = some cs := by
  induction cs with
  | nil => rfl
  | cons c cs ih =>
    have hvalid : c.toNat < 0xD800 ∨ 0xDFFF < c.toNat := by
      obtain h | ⟨h, -⟩ := c.valid
      · exact .inl h
      · exact .inr h
    have hhigh : Utf16.isHigh c.toNat = false := by
      simp only [Utf16.isHigh, Bool.and_eq_false_iff, decide_eq_false_iff_not]
      omega
    have hlow : Utf16.isLow c.toNat = false := by
      simp only [Utf16.isLow, Bool.and_eq_false_iff, decide_eq_false_iff_not]
      omega
    rw [List.map_cons, Utf16.text?.eq_def]
    simp [hhigh, hlow, ih]

/-- The units of a string that was read are its text. -/
theorem textOfUnits?_map (s : String) : textOfUnits? (s.toList.map (some ·.toNat)) = some s := by
  have hunits : s.toList.map (some ·.toNat) = (s.toList.map (·.toNat)).map some := by simp
  rw [textOfUnits?, hunits, allSome?_map, Option.bind_some, text?_map_toNat, Option.map_some,
    String.ofList_toList]

/-- **A string literal** before a text. -/
theorem Spells.quote_append (h : Spells text tokens) (s : String) :
    Spells (Json.quote s ++ text) (.string (some s) :: tokens) := by
  have htext : Json.quote s ++ text =
      '"' :: ((s.toList.flatMap Json.escape ++ ['"']) ++ text) := by simp [Json.quote]
  rw [htext]
  refine h.cons _ (by decide) fun rest => ?_
  have htake := takeString?_quote s.toList [] rest
  simp only [take?, List.map_append, List.append_assoc, List.map_cons, List.map_nil,
    List.singleton_append, htake, List.reverse_nil, List.nil_append, Option.map_some,
    textOfUnits?_map]

end Strings

end Token

/-! ### Numbers -/

/-- There are digits, and they are digits. -/
def areDigits (ds : List Nat) : Bool := !ds.isEmpty && ds.all (· < 10)

/-- The number has a literal: there are digits wherever the literal has some, and those before the
point begin with no idle zero. -/
def Number.isWellFormed (n : Number) : Bool :=
  areDigits n.whole && (n.whole.head? != some 0 || n.whole == [0]) &&
    n.fraction.all areDigits && n.exponent.all (areDigits ·.2)

namespace Token

section Numbers

open Decimal Json

/-- The input does not begin with a digit. -/
def EndsDigits (input : Symbols) : Prop :=
  ∀ c rest, input = some c :: rest → digitValue? c = none

theorem Stops.endsDigits {rest : Symbols} (h : Stops rest) : EndsDigits rest := by
  intro c behind hrest
  have hc := h c behind hrest
  simp only [continuesNumber, Bool.or_eq_false_iff, Option.isSome_eq_false_iff,
    Option.isNone_iff_eq_none] at hc
  exact hc.1.1.1

theorem digitValue?_digitChar : ∀ d < 10, digitValue? (digitChar d) = some d := by decide

theorem takeDigits_digitChars {ds : List Nat} (hds : ∀ d ∈ ds, d < 10) {rest : Symbols}
    (hrest : EndsDigits rest) : takeDigits ((digitChars ds).map some ++ rest) = (ds, rest) := by
  induction ds with
  | nil =>
    match rest, hrest with
    | [], _ => rfl
    | none :: _, _ => rfl
    | some c :: rest, hrest =>
      have hc := hrest c rest rfl
      simp [digitChars, takeDigits, hc]
  | cons d ds ih =>
    obtain ⟨hd, hds⟩ := List.forall_mem_cons.mp hds
    have hrest := ih hds
    simp only [digitChars, List.map_cons, List.cons_append, takeDigits,
      digitValue?_digitChar d hd] at hrest ⊢
    rw [hrest]

theorem exists_cons_of_areDigits {ds : List Nat} (h : areDigits ds = true) :
    ∃ d rest, ds = d :: rest ∧ d < 10 ∧ ∀ d ∈ rest, d < 10 := by
  simp only [areDigits, Bool.and_eq_true, Bool.not_eq_true', List.isEmpty_eq_false_iff,
    List.all_eq_true, decide_eq_true_eq] at h
  obtain ⟨hne, hlt⟩ := h
  obtain ⟨d, rest, rfl⟩ := List.exists_cons_of_ne_nil hne
  exact ⟨d, rest, rfl, List.forall_mem_cons.mp hlt⟩

theorem takeDigits1?_digitChars {ds : List Nat} (hds : areDigits ds = true) {rest : Symbols}
    (hrest : EndsDigits rest) :
    takeDigits1? ((digitChars ds).map some ++ rest) = some (ds, rest) := by
  obtain ⟨d, ds, rfl, hd, hds⟩ := exists_cons_of_areDigits hds
  rw [takeDigits1?, takeDigits_digitChars (List.forall_mem_cons.mpr ⟨hd, hds⟩) hrest]

theorem takeWhole?_digitChars {ds : List Nat} (hds : areDigits ds = true)
    (hfirst : ds.head? ≠ some 0 ∨ ds = [0]) {rest : Symbols} (hrest : EndsDigits rest) :
    takeWhole? ((digitChars ds).map some ++ rest) = some (ds, rest) := by
  obtain hfirst | rfl := hfirst
  · have hwhole : ∀ d < 10, d ≠ 0 → ∀ input : Symbols, takeWhole? (some (digitChar d) :: input) =
        takeDigits1? (some (digitChar d) :: input) := by
      intro d hd hne input
      interval_cases d
      · exact absurd rfl hne
      all_goals rfl
    have hread := takeDigits1?_digitChars hds hrest
    obtain ⟨d, ds, rfl, hd, -⟩ := exists_cons_of_areDigits hds
    rw [← hread]
    exact hwhole d hd (fun h => hfirst (congrArg some h)) _
  · rfl

/-- The point and the digits after it. -/
def fractionText : Option (List Nat) → List Char
  | some ds => '.' :: digitChars ds
  | none => []

/-- The exponent with its sign. -/
def exponentText : Option (Bool × List Nat) → List Char
  | some (negative, ds) => 'e' :: (if negative then '-' else '+') :: digitChars ds
  | none => []

theorem numberText_eq (n : Number) : numberText n = (if n.negative then ['-'] else []) ++
    (digitChars n.whole ++ (fractionText n.fraction ++ exponentText n.exponent)) := by
  simp only [numberText, List.append_assoc]
  rfl

variable {rest : Symbols}

theorem takeExponent?_exponentText {exponent : Option (Bool × List Nat)}
    (h : exponent.all (areDigits ·.2) = true) (hrest : Stops rest) :
    takeExponent? ((exponentText exponent).map some ++ rest) = some (exponent, rest) := by
  cases exponent with
  | none =>
    match rest, hrest with
    | [], _ => rfl
    | none :: _, _ => rfl
    | some c :: rest, hrest =>
      have hc := hrest c rest rfl
      simp only [continuesNumber, Bool.or_eq_false_iff, decide_eq_false_iff_not] at hc
      have hmark : ¬ (c = 'e' ∨ c = 'E') := not_or.mpr ⟨hc.1.2, hc.2⟩
      simp only [exponentText, List.map_nil, List.nil_append, takeExponent?, if_neg hmark]
  | some exponent =>
    obtain ⟨negative, ds⟩ := exponent
    have hds := takeDigits1?_digitChars h hrest.endsDigits
    cases negative with
    | false => simp [exponentText, takeExponent?, takeSign, hds]
    | true => simp [exponentText, takeExponent?, takeSign, hds]

theorem endsDigits_exponentText (exponent : Option (Bool × List Nat)) (hrest : Stops rest) :
    EndsDigits ((exponentText exponent).map some ++ rest) := by
  cases exponent with
  | none => exact hrest.endsDigits
  | some exponent =>
    intro c behind h
    obtain ⟨hc, -⟩ := List.cons.inj h
    rw [← Option.some.inj hc]
    decide

theorem takeFraction?_fractionText {fraction : Option (List Nat)}
    (h : fraction.all areDigits = true) (exponent : Option (Bool × List Nat))
    (hrest : Stops rest) :
    takeFraction? ((fractionText fraction).map some ++ ((exponentText exponent).map some ++ rest)) =
      some (fraction, (exponentText exponent).map some ++ rest) := by
  have hexponent := endsDigits_exponentText exponent hrest
  cases fraction with
  | some ds =>
    have hds := takeDigits1?_digitChars h hexponent
    simp [fractionText, takeFraction?, hds]
  | none =>
    have hpoint : ∀ behind, (exponentText exponent).map some ++ rest ≠ some '.' :: behind := by
      intro behind heq
      cases exponent with
      | none => exact absurd (hrest '.' behind heq) (by decide)
      | some exponent => exact absurd (List.cons.inj heq).1 (by decide)
    simp only [fractionText, List.map_nil, List.nil_append, takeFraction?]

theorem endsDigits_fractionText (fraction : Option (List Nat))
    (exponent : Option (Bool × List Nat)) (hrest : Stops rest) :
    EndsDigits ((fractionText fraction).map some ++
      ((exponentText exponent).map some ++ rest)) := by
  cases fraction with
  | none => exact endsDigits_exponentText exponent hrest
  | some ds =>
    intro c behind h
    obtain ⟨hc, -⟩ := List.cons.inj h
    rw [← Option.some.inj hc]
    decide

/-- **A number is read to its end.** -/
theorem takeNumber?_numberText {n : Number} (hn : n.isWellFormed = true) (hrest : Stops rest) :
    takeNumber? ((numberText n).map some ++ rest) = some (n, rest) := by
  obtain ⟨negative, whole, fraction, exponent⟩ := n
  simp only [Number.isWellFormed, Bool.and_eq_true, Bool.or_eq_true, bne_iff_ne, beq_iff_eq] at hn
  obtain ⟨⟨⟨hwhole, hfirst⟩, hfraction⟩, hexponent⟩ := hn
  have hdigits := takeWhole?_digitChars hwhole hfirst
    (endsDigits_fractionText fraction exponent hrest)
  have hpoint := takeFraction?_fractionText hfraction exponent hrest
  have hmark := takeExponent?_exponentText hexponent hrest
  rw [numberText_eq, List.map_append, List.map_append, List.map_append, List.append_assoc,
    List.append_assoc, List.append_assoc]
  cases negative with
  | true =>
    simp only [takeNumber?, if_true, List.map_cons, List.map_nil, List.singleton_append, hdigits,
      hpoint, hmark, Option.bind_eq_bind, Option.bind_some]
  | false =>
    obtain ⟨d, ds, rfl, hd, -⟩ := exists_cons_of_areDigits hwhole
    have hsign : ∀ input behind, some (digitChar d) :: input ≠ some '-' :: behind := by
      intro input behind h
      have hvalue := digitValue?_digitChar d hd
      rw [Option.some.inj (List.cons.inj h).1] at hvalue
      cases hvalue
    simp only [digitChars, List.map_cons, List.cons_append] at hdigits
    simp only [takeNumber?, Bool.false_eq_true, if_false, List.map_nil, List.nil_append, digitChars,
      List.map_cons, List.cons_append]
    split
    · next behind heq => exact absurd heq (hsign _ behind)
    · simp only [hdigits, hpoint, hmark, Option.bind_eq_bind, Option.bind_some]

/-- A number begins with a sign or a digit. -/
theorem exists_cons_numberText {n : Number} (hn : n.isWellFormed = true) :
    ∃ c behind, numberText n = c :: behind ∧ (c = '-' ∨ ∃ d < 10, c = digitChar d) := by
  simp only [Number.isWellFormed, Bool.and_eq_true] at hn
  obtain ⟨d, ds, hwhole, hd, -⟩ := exists_cons_of_areDigits hn.1.1.1
  rw [numberText_eq, hwhole]
  cases n.negative with
  | true => exact ⟨_, _, rfl, .inl rfl⟩
  | false => exact ⟨_, _, rfl, .inr ⟨d, hd, rfl⟩⟩

/-- With a sign or a digit nothing but a number begins. -/
theorem take?_eq_takeNumber? {c : Char} (hc : c = '-' ∨ ∃ d < 10, c = digitChar d) :
    isSpace c = false ∧ ∀ input : Symbols, take? (some c :: input) =
      (takeNumber? (some c :: input)).map fun (n, rest) => (.number n, rest) := by
  obtain rfl | ⟨d, hd, rfl⟩ := hc
  · exact ⟨rfl, fun _ => rfl⟩
  · interval_cases d
    all_goals exact ⟨rfl, fun _ => rfl⟩

/-- A number literal. -/
theorem spells_numberText {n : Number} (hn : n.isWellFormed = true) :
    Spells (numberText n) [.number n] := by
  intro rest more hrest hcuts
  obtain ⟨c, behind, htext, hc⟩ := exists_cons_numberText hn
  obtain ⟨hspace, htake⟩ := take?_eq_takeNumber? hc
  have hread := takeNumber?_numberText hn hrest
  rw [htext] at hread ⊢
  refine .token hspace ?_ (by simp) hcuts
  exact (htake _).trans (congrArg (Option.map _) hread)

end Numbers

end Token

end MutationTesting

import MutationTesting.Json.Members
import MutationTesting.Proofs.Json.Token
/-!
# Written values are read back

The text of a value is cut into the tokens of the value, and these take the pushdown machine of the
reader from the beginning of the value behind it, whatever is open around it. Both are shown by
induction on the value, with lists and fields beside it.

## Main definitions

* `Json.tokens` — the tokens of a value
* `Json.raw` — the value as it is read, with every text in it

## Main results

* `Json.spells_indentedChars`, `Json.spells_compactChars` — the tokens of the texts
* `Json.run_tokens` — the machine reads them
* `Json.ofBytes?_indented`, `Json.ofText?_compact` — a value is read back from its text
-/

namespace MutationTesting

namespace Json

open Token

/-! ### Tokens of a value -/

mutual

/-- The tokens of a value. -/
def tokens : Json String → List Token
  | .null => [.null]
  | .bool b => [.bool b]
  | .number n => [.number n]
  | .string s => [.string (some s)]
  | .list items => .openList :: (tokensList items ++ [.closeList])
  | .object fields => .openObject :: (tokensFields fields ++ [.closeObject])

/-- The tokens of items with commas between them. -/
def tokensList : List (Json String) → List Token
  | [] => []
  | [item] => tokens item
  | item :: rest => tokens item ++ .comma :: tokensList rest

/-- The tokens of fields with commas between them. -/
def tokensFields : List (String × Json String) → List Token
  | [] => []
  | [(key, value)] => .string (some key) :: .colon :: tokens value
  | (key, value) :: rest =>
    .string (some key) :: .colon :: (tokens value ++ .comma :: tokensFields rest)

end

section Spelling

variable {text : List Char} {ts : List Token}

theorem spells_boolText (b : Bool) : Spells (boolText b) [.bool b] := by
  cases b with
  | true => exact spells_nil.cons ['r', 'u', 'e'] rfl fun _ => rfl
  | false => exact spells_nil.cons ['a', 'l', 's', 'e'] rfl fun _ => rfl

/-- A new line before a text. -/
theorem spells_newline_append (h : Spells text ts) (depth : Nat) :
    Spells (newline depth ++ text) ts := by
  have hspaces : ∀ n, Spells (List.replicate n ' ' ++ text) ts := by
    intro n
    induction n with
    | zero => exact h
    | succ n ih => exact ih.space rfl
  exact (hspaces (2 * depth)).space rfl

/-- A comma between two texts. -/
theorem spells_append_comma {text' : List Char} {ts' : List Token} (h : Spells text ts)
    (h' : Spells text' ts') : Spells (text ++ ',' :: text') (ts ++ .comma :: ts') :=
  h.append_cons (h'.mark rfl fun _ => rfl) rfl

/-- A key before the text of its value. -/
theorem spells_key_append (h : Spells text ts) (key : String) :
    Spells (quote key ++ ':' :: ' ' :: text) (.string (some key) :: .colon :: ts) :=
  ((h.space rfl).mark rfl fun _ => rfl).quote_append key

/-- The items of a list between its brackets. -/
theorem spells_bracketed (h : Spells text ts) (depth : Nat) :
    Spells ('[' :: (text ++ newline depth ++ [']'])) (.openList :: (ts ++ [.closeList])) := by
  have hclose := spells_newline_append (spells_nil.mark (c := ']') rfl fun _ => rfl) depth
  rw [List.append_assoc]
  exact (h.append_cons hclose rfl).mark rfl fun _ => rfl

/-- The fields of an object between its braces. -/
theorem spells_braced (h : Spells text ts) (depth : Nat) :
    Spells ('{' :: (text ++ newline depth ++ ['}']))
      (.openObject :: (ts ++ [.closeObject])) := by
  have hclose := spells_newline_append (spells_nil.mark (c := '}') rfl fun _ => rfl) depth
  rw [List.append_assoc]
  exact (h.append_cons hclose rfl).mark rfl fun _ => rfl

end Spelling

mutual

/-- **The tokens of the indented text** are those of the value. -/
theorem spells_indentedChars (depth : Nat) : ∀ j : Json String,
    j.allNumbers Number.isWellFormed = true → Spells (indentedChars depth j) j.tokens
  | .null, _ => spells_nil.cons ['u', 'l', 'l'] rfl fun _ => rfl
  | .bool b, _ => spells_boolText b
  | .number n, h => spells_numberText h
  | .string s, _ => by
    have hquote := spells_nil.quote_append s
    rwa [List.append_nil] at hquote
  | .list [], _ => by
    have hclose := spells_nil.mark (c := ']') rfl fun _ => rfl
    exact hclose.mark rfl fun _ => rfl
  | .list (item :: rest), h =>
    spells_bracketed (spells_indentedList (depth + 1) (item :: rest) (List.cons_ne_nil _ _) h) depth
  | .object [], _ => by
    have hclose := spells_nil.mark (c := '}') rfl fun _ => rfl
    exact hclose.mark rfl fun _ => rfl
  | .object (field :: rest), h =>
    spells_braced (spells_indentedFields (depth + 1) (field :: rest) (List.cons_ne_nil _ _) h) depth

/-- The tokens of items, each on a line of its own. -/
theorem spells_indentedList (depth : Nat) : ∀ items : List (Json String), items ≠ [] →
    allNumbersList Number.isWellFormed items = true →
      Spells (indentedList depth items) (tokensList items)
  | [], h, _ => absurd rfl h
  | [item], _, h => by
    obtain ⟨hitem, -⟩ := Bool.and_eq_true_iff.mp h
    exact spells_newline_append (spells_indentedChars depth item hitem) depth
  | item :: next :: rest, _, h => by
    obtain ⟨hitem, hrest⟩ := Bool.and_eq_true_iff.mp h
    have hfirst := spells_newline_append (spells_indentedChars depth item hitem) depth
    exact spells_append_comma hfirst
      (spells_indentedList depth (next :: rest) (List.cons_ne_nil _ _) hrest)

/-- The tokens of fields, each on a line of its own. -/
theorem spells_indentedFields (depth : Nat) : ∀ fields : List (String × Json String), fields ≠ [] →
    allNumbersFields Number.isWellFormed fields = true →
      Spells (indentedFields depth fields) (tokensFields fields)
  | [], h, _ => absurd rfl h
  | [(key, value)], _, h => by
    obtain ⟨hvalue, -⟩ := Bool.and_eq_true_iff.mp h
    rw [indentedFields, List.append_assoc]
    have hkey := spells_key_append (spells_indentedChars depth value hvalue) key
    exact spells_newline_append hkey depth
  | (key, value) :: next :: rest, _, h => by
    obtain ⟨hvalue, hrest⟩ := Bool.and_eq_true_iff.mp h
    have hfirst := spells_indentedChars depth value hvalue
    have hall := spells_append_comma hfirst
      (spells_indentedFields depth (next :: rest) (List.cons_ne_nil _ _) hrest)
    rw [indentedFields, List.append_assoc]
    · exact spells_newline_append (spells_key_append hall key) depth
    · nofun

end

/-! ### Compact texts -/

section Spelling

variable {text : List Char} {ts : List Token}

/-- The items of a list right between its brackets. -/
theorem spells_list (h : Spells text ts) :
    Spells ('[' :: (text ++ [']'])) (.openList :: (ts ++ [.closeList])) := by
  have hclose := spells_nil.mark (c := ']') rfl fun _ => rfl
  exact (h.append_cons hclose rfl).mark rfl fun _ => rfl

/-- The fields of an object right between its braces. -/
theorem spells_object (h : Spells text ts) :
    Spells ('{' :: (text ++ ['}'])) (.openObject :: (ts ++ [.closeObject])) := by
  have hclose := spells_nil.mark (c := '}') rfl fun _ => rfl
  exact (h.append_cons hclose rfl).mark rfl fun _ => rfl

/-- A key right before the text of its value. -/
theorem spells_field (h : Spells text ts) (key : String) :
    Spells (quote key ++ ':' :: text) (.string (some key) :: .colon :: ts) :=
  (h.mark rfl fun _ => rfl).quote_append key

end Spelling

mutual

/-- **The tokens of the compact text** are those of the value, too. -/
theorem spells_compactChars : ∀ j : Json String,
    j.allNumbers Number.isWellFormed = true → Spells (compactChars j) j.tokens
  | .null, _ => spells_nil.cons ['u', 'l', 'l'] rfl fun _ => rfl
  | .bool b, _ => spells_boolText b
  | .number n, h => spells_numberText h
  | .string s, _ => by
    have hquote := spells_nil.quote_append s
    rwa [List.append_nil] at hquote
  | .list items, h => spells_list (spells_compactList items h)
  | .object fields, h => spells_object (spells_compactFields fields h)

/-- The tokens of items with commas between them. -/
theorem spells_compactList : ∀ items : List (Json String),
    allNumbersList Number.isWellFormed items = true → Spells (compactList items) (tokensList items)
  | [], _ => spells_nil
  | [item], h => by
    obtain ⟨hitem, -⟩ := Bool.and_eq_true_iff.mp h
    exact spells_compactChars item hitem
  | item :: next :: rest, h => by
    obtain ⟨hitem, hrest⟩ := Bool.and_eq_true_iff.mp h
    exact spells_append_comma (spells_compactChars item hitem)
      (spells_compactList (next :: rest) hrest)

/-- The tokens of fields with commas between them. -/
theorem spells_compactFields : ∀ fields : List (String × Json String),
    allNumbersFields Number.isWellFormed fields = true →
      Spells (compactFields fields) (tokensFields fields)
  | [], _ => spells_nil
  | [(key, value)], h => by
    obtain ⟨hvalue, -⟩ := Bool.and_eq_true_iff.mp h
    exact spells_field (spells_compactChars value hvalue) key
  | (key, value) :: next :: rest, h => by
    obtain ⟨hvalue, hrest⟩ := Bool.and_eq_true_iff.mp h
    have hall := spells_append_comma (spells_compactChars value hvalue)
      (spells_compactFields (next :: rest) hrest)
    exact spells_field hall key

end

/-! ### The machine -/

mutual

/-- The value as it is read. -/
def raw : Json String → Raw
  | .null => .null
  | .bool b => .bool b
  | .number n => .number n
  | .string s => .string (some s)
  | .list items => .list (rawList items)
  | .object fields => .object (rawFields fields)

/-- `raw` on every item. -/
def rawList : List (Json String) → List Raw
  | [] => []
  | item :: rest => raw item :: rawList rest

/-- `raw` on every field, its key included. -/
def rawFields : List (String × Json String) → List (Option String × Raw)
  | [] => []
  | (key, value) :: rest => (some key, raw value) :: rawFields rest

end

theorem run_of_step {stack stack' : List Frame} {expect expect' : Expect} {token : Token}
    (h : step stack expect token = some (stack', expect')) (rest : List Token) :
    run stack expect (token :: rest) = run stack' expect' rest := by
  cases stack <;> cases expect <;> simp only [run, h]

/-- No value begins like the end of a list. -/
theorem run_valueOrEnd (item : Json String) (items : List (Json String)) (stack : List Frame)
    (rest : List Token) :
    run (.list [] :: stack) .valueOrEnd (tokensList (item :: items) ++ rest) =
      run (.list [] :: stack) .value (tokensList (item :: items) ++ rest) := by
  obtain ⟨more, hmore⟩ : ∃ more, tokensList (item :: items) = item.tokens ++ more := by
    cases items with
    | nil => exact ⟨[], (List.append_nil _).symm⟩
    | cons next items => exact ⟨_, rfl⟩
  rw [hmore]
  cases item <;> rfl

/-- An object that is not empty goes on with a key. -/
theorem run_keyOrEnd (field : String × Json String) (fields : List (String × Json String))
    (stack : List Frame) (rest : List Token) :
    run (.object [] :: stack) .keyOrEnd (tokensFields (field :: fields) ++ rest) =
      run (.object [] :: stack) .key (tokensFields (field :: fields) ++ rest) := by
  cases fields <;> rfl

mutual

/-- **The machine reads the tokens of a value**, whatever is open around it. -/
theorem run_tokens (stack : List Frame) (rest : List Token) : ∀ j : Json String,
    run stack .value (j.tokens ++ rest) = run stack (.after j.raw) rest
  | .null => run_of_step rfl rest
  | .bool _ => run_of_step rfl rest
  | .number _ => run_of_step rfl rest
  | .string _ => run_of_step rfl rest
  | .list [] => (run_of_step rfl _).trans (run_of_step rfl rest)
  | .list (item :: items) => by
    have hitems := run_tokensList stack [] rest (item :: items) (List.cons_ne_nil _ _)
    rw [← run_valueOrEnd] at hitems
    rw [tokens, List.cons_append, List.append_assoc]
    exact (run_of_step rfl _).trans hitems
  | .object [] => (run_of_step rfl _).trans (run_of_step rfl rest)
  | .object (field :: fields) => by
    have hfields := run_tokensFields stack [] rest (field :: fields) (List.cons_ne_nil _ _)
    rw [← run_keyOrEnd] at hfields
    rw [tokens, List.cons_append, List.append_assoc]
    exact (run_of_step rfl _).trans hfields

/-- The machine reads the rest of a list. -/
theorem run_tokensList (stack : List Frame) (done : List Raw) (rest : List Token) :
    ∀ items : List (Json String), items ≠ [] →
      run (.list done :: stack) .value (tokensList items ++ ([.closeList] ++ rest)) =
        run stack (.after (.list (done.reverse ++ rawList items))) rest
  | [], h => absurd rfl h
  | [item], _ => by
    rw [tokensList, run_tokens, rawList, rawList, ← List.reverse_cons]
    rfl
  | item :: next :: items, _ => by
    have hrest := run_tokensList stack (item.raw :: done) rest (next :: items)
      (List.cons_ne_nil _ _)
    rw [List.reverse_cons, List.append_assoc, List.singleton_append, ← rawList] at hrest
    rw [tokensList, List.append_assoc, run_tokens]
    · exact hrest
    · nofun

/-- The machine reads the rest of an object. -/
theorem run_tokensFields (stack : List Frame) (done : List (Option String × Raw))
    (rest : List Token) : ∀ fields : List (String × Json String), fields ≠ [] →
      run (.object done :: stack) .key (tokensFields fields ++ ([.closeObject] ++ rest)) =
        run stack (.after (.object (done.reverse ++ rawFields fields))) rest
  | [], h => absurd rfl h
  | [(key, value)], _ => by
    have hvalue := run_tokens (.field done (some key) :: stack) ([.closeObject] ++ rest) value
    rw [rawFields, rawFields, ← List.reverse_cons]
    exact hvalue
  | (key, value) :: next :: fields, _ => by
    have hvalue := run_tokens (.field done (some key) :: stack)
      (.comma :: (tokensFields (next :: fields) ++ ([.closeObject] ++ rest))) value
    have hrest := run_tokensFields stack ((some key, value.raw) :: done) rest (next :: fields)
      (List.cons_ne_nil _ _)
    rw [List.reverse_cons, List.append_assoc, List.singleton_append, ← rawFields] at hrest
    rw [tokensFields, List.cons_append, List.cons_append, List.append_assoc]
    · exact hvalue.trans hrest
    · nofun

end

/-- The tokens of a value are read as the value. -/
theorem ofTokens?_tokens (j : Json String) : ofTokens? j.tokens = some j.raw := by
  have hrun := run_tokens [] [] j
  rwa [List.append_nil] at hrun

/-- **A value is read back from its indented text.** -/
theorem ofBytes?_indented {j : Json String} (h : j.allNumbers Number.isWellFormed = true) :
    ofBytes? (Utf8.encode j.indented) = some j.raw := by
  have hscan := (spells_indentedChars 0 j h).scan
  rw [ofBytes?, Utf8.symbols_encode, ofSymbols?, indented, String.toList_ofList, hscan,
    Option.bind_some, ofTokens?_tokens]

/-- **A value is read back from its compact text.** -/
theorem ofText?_compact {j : Json String} (h : j.allNumbers Number.isWellFormed = true) :
    ofText? j.compact = some j.raw := by
  have hscan := (spells_compactChars j h).scan
  rw [ofText?, ofSymbols?, compact, String.toList_ofList, hscan, Option.bind_some,
    ofTokens?_tokens]

/-! ### What is kept of a value -/

mutual

/-- All texts of a written value are texts. -/
theorem texts?_raw : ∀ j : Json String, texts? j.raw = some j
  | .null => rfl
  | .bool _ => rfl
  | .number _ => rfl
  | .string _ => rfl
  | .list items => by rw [raw, texts?, textsList?_raw, Option.map_some]
  | .object fields => by rw [raw, texts?, textsFields?_raw, Option.map_some]

theorem textsList?_raw : ∀ items : List (Json String), textsList? (rawList items) = some items
  | [] => rfl
  | item :: rest => by
    rw [rawList, textsList?, texts?_raw item, textsList?_raw rest]
    rfl

theorem textsFields?_raw : ∀ fields : List (String × Json String),
    textsFields? (rawFields fields) = some fields
  | [] => rfl
  | (key, value) :: rest => by
    rw [rawFields, textsFields?, texts?_raw value, textsFields?_raw rest]
    rfl

end

mutual

theorem depth_raw : ∀ j : Json String, j.raw.depth = j.depth
  | .null => rfl
  | .bool _ => rfl
  | .number _ => rfl
  | .string _ => rfl
  | .list items => by rw [raw, depth, depth, depthList_raw]
  | .object fields => by rw [raw, depth, depth, depthFields_raw]

theorem depthList_raw : ∀ items : List (Json String), depthList (rawList items) = depthList items
  | [] => rfl
  | item :: rest => by rw [rawList, depthList, depthList, depth_raw item, depthList_raw rest]

theorem depthFields_raw : ∀ fields : List (String × Json String),
    depthFields (rawFields fields) = depthFields fields
  | [] => rfl
  | (key, value) :: rest => by
    rw [rawFields, depthFields, depthFields, depth_raw value, depthFields_raw rest]

end

mutual

theorem allNumbers_raw (p : Number → Bool) : ∀ j : Json String,
    j.raw.allNumbers p = j.allNumbers p
  | .null => rfl
  | .bool _ => rfl
  | .number _ => rfl
  | .string _ => rfl
  | .list items => by rw [raw, allNumbers, allNumbers, allNumbersList_raw]
  | .object fields => by rw [raw, allNumbers, allNumbers, allNumbersFields_raw]

theorem allNumbersList_raw (p : Number → Bool) : ∀ items : List (Json String),
    allNumbersList p (rawList items) = allNumbersList p items
  | [] => rfl
  | item :: rest => by
    rw [rawList, allNumbersList, allNumbersList, allNumbers_raw p item, allNumbersList_raw p rest]

theorem allNumbersFields_raw (p : Number → Bool) : ∀ fields : List (String × Json String),
    allNumbersFields p (rawFields fields) = allNumbersFields p fields
  | [] => rfl
  | (key, value) :: rest => by
    rw [rawFields, allNumbersFields, allNumbersFields, allNumbers_raw p value,
      allNumbersFields_raw p rest]

end

mutual

theorem allNumbers_mono {p q : Number → Bool} (h : ∀ n, p n = true → q n = true) :
    ∀ j : Json String, j.allNumbers p = true → j.allNumbers q = true
  | .null, _ => rfl
  | .bool _, _ => rfl
  | .number n, hj => h n hj
  | .string _, _ => rfl
  | .list items, hj => allNumbersList_mono h items hj
  | .object fields, hj => allNumbersFields_mono h fields hj

theorem allNumbersList_mono {p q : Number → Bool} (h : ∀ n, p n = true → q n = true) :
    ∀ items : List (Json String), allNumbersList p items = true → allNumbersList q items = true
  | [], _ => rfl
  | item :: rest, hitems => by
    obtain ⟨hitem, hrest⟩ := Bool.and_eq_true_iff.mp hitems
    exact Bool.and_eq_true_iff.mpr ⟨allNumbers_mono h item hitem, allNumbersList_mono h rest hrest⟩

theorem allNumbersFields_mono {p q : Number → Bool} (h : ∀ n, p n = true → q n = true) :
    ∀ fields : List (String × Json String),
      allNumbersFields p fields = true → allNumbersFields q fields = true
  | [], _ => rfl
  | (_, value) :: rest, hfields => by
    obtain ⟨hvalue, hrest⟩ := Bool.and_eq_true_iff.mp hfields
    exact Bool.and_eq_true_iff.mpr
      ⟨allNumbers_mono h value hvalue, allNumbersFields_mono h rest hrest⟩

end

/-- A written value is kept unless it is nested too deep or has a number that is too large. -/
theorem isKeepable_raw (nesting : Nat) (j : Json String) :
    j.raw.isKeepable nesting =
      (j.allNumbers (·.machine?.isSome) && decide (nesting + j.depth ≤ nestingLimit)) := by
  rw [isKeepable, texts?_raw, allNumbers_raw, depth_raw, Option.isSome_some, Bool.true_and]

/-! ### Lists and fields of a value -/

theorem rawList_eq_map (items : List (Json String)) : rawList items = items.map raw := by
  induction items with
  | nil => rfl
  | cons item rest ih => rw [rawList, ih, List.map_cons]

theorem rawFields_eq_map (fields : List (String × Json String)) :
    rawFields fields = fields.map fun field => (some field.1, field.2.raw) := by
  induction fields with
  | nil => rfl
  | cons field rest ih => rw [rawFields, ih, List.map_cons]

theorem allNumbersList_eq_all (p : Number → Bool) (items : List (Json String)) :
    allNumbersList p items = items.all (·.allNumbers p) := by
  induction items with
  | nil => rfl
  | cons item rest ih => rw [allNumbersList, ih, List.all_cons]

theorem allNumbersFields_eq_all (p : Number → Bool) (fields : List (String × Json String)) :
    allNumbersFields p fields = fields.all (·.2.allNumbers p) := by
  induction fields with
  | nil => rfl
  | cons field rest ih => rw [allNumbersFields, ih, List.all_cons]

theorem depthList_le {items : List (Json String)} {k : Nat} (h : ∀ j ∈ items, j.depth ≤ k) :
    depthList items ≤ k := by
  induction items with
  | nil => exact Nat.zero_le k
  | cons item rest ih =>
    obtain ⟨hitem, hrest⟩ := List.forall_mem_cons.mp h
    exact Nat.max_le.mpr ⟨hitem, ih hrest⟩

end Json

end MutationTesting

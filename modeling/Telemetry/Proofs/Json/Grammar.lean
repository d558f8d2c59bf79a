/-
The grammar of documents, and what the scanner makes of a text that keeps to it. A value is known by
its tokens: its spellings differ only in white space and in how the exponents of numbers are marked.
Main statements: a text that spells a value is scanned to the tokens of that value, and whatever is
spelt is made of values at every depth.
-/
import Telemetry.Proofs.Json.Scan

namespace Telemetry.Json

open Text.Utf8 (Octets)
open Number (Numeral)

/-! ## Values as rows of tokens -/

/-- A member of a map. -/
structure Member where
  key : Octets
  value : List Token
deriving DecidableEq, Repr

def Member.tokens (m : Member) : List Token := .text m.key :: .colon :: m.value

/-- The tokens of a list. -/
def listOf (vs : List (List Token)) : List Token :=
  .listOpen :: ([.comma].intercalate vs ++ [.listClose])

/-- The tokens of a map. -/
def mapOf (ms : List Member) : List Token :=
  .mapOpen :: ([.comma].intercalate (ms.map Member.tokens) ++ [.mapClose])

/-- What is a value at any depth. -/
inductive IsValue : List Token → Prop where
  | null : IsValue [.null]
  | bool (b : Bool) : IsValue [.bool b]
  | number (n : Numeral) : IsValue [.number n]
  | text (raw : Octets) : IsValue [.text raw]
  | list {vs : List (List Token)} (items : ∀ v ∈ vs, IsValue v) : IsValue (listOf vs)
  | map {ms : List Member} (members : ∀ m ∈ ms, IsValue m.value) : IsValue (mapOf ms)

/-- No value begins like the end of a list. -/
theorem IsValue.first {v : List Token} (h : IsValue v) : ∃ t ts, v = t :: ts ∧ t ≠ .listClose := by
  cases h <;> exact ⟨_, _, rfl, Token.noConfusion⟩

/-! ## Texts that spell a value -/

/-- Nothing but white space. -/
def IsBlank (x : Octets) : Prop := ∀ b ∈ x, isSpace b = true

/-- The parts of a document. -/
inductive Part where
  | value (v : List Token)
  | padded (v : List Token)
  | items (vs : List (List Token))
  | entry (m : Member)
  | members (ms : List Member)

def Part.tokens : Part → List Token
  | value v | padded v => v
  | items vs => [.comma].intercalate vs
  | entry m => m.tokens
  | members ms => [.comma].intercalate (ms.map Member.tokens)

/-- Which texts spell a part of a document. White space may stand around every value and every key,
and in an empty list or map. -/
inductive Spelling : Part → Octets → Prop where
  | null : Spelling (.value [.null]) [110, 117, 108, 108]
  | true : Spelling (.value [.bool true]) [116, 114, 117, 101]
  | false : Spelling (.value [.bool false]) [102, 97, 108, 115, 101]
  | number {n : Numeral} {x : Octets} (numeral : n.Spelling x) : Spelling (.value [.number n]) x
  | text {raw : Octets} (content : Literal.IsContent raw) :
    Spelling (.value [.text raw]) (34 :: (raw ++ [34]))
  | list {vs : List (List Token)} {x : Octets} (inside : Spelling (.items vs) x) :
    Spelling (.value (listOf vs)) (91 :: (x ++ [93]))
  | map {ms : List Member} {x : Octets} (inside : Spelling (.members ms) x) :
    Spelling (.value (mapOf ms)) (123 :: (x ++ [125]))
  | padded {v : List Token} {before x behind : Octets} (blank_before : IsBlank before)
      (value : Spelling (.value v) x) (blank_behind : IsBlank behind) :
    Spelling (.padded v) (before ++ (x ++ behind))
  | no_item {x : Octets} (blank : IsBlank x) : Spelling (.items []) x
  | last_item {v : List Token} {x : Octets} (item : Spelling (.padded v) x) : Spelling (.items [v]) x
  | item {v w : List Token} {vs : List (List Token)} {x y : Octets} (item : Spelling (.padded v) x)
      (more : Spelling (.items (w :: vs)) y) : Spelling (.items (v :: w :: vs)) (x ++ 44 :: y)
  | entry {m : Member} {before behind x : Octets} (blank_before : IsBlank before)
      (key : Literal.IsContent m.key) (blank_behind : IsBlank behind)
      (value : Spelling (.padded m.value) x) :
    Spelling (.entry m) (before ++ 34 :: (m.key ++ 34 :: (behind ++ 58 :: x)))
  | no_member {x : Octets} (blank : IsBlank x) : Spelling (.members []) x
  | last_member {m : Member} {x : Octets} (member : Spelling (.entry m) x) : Spelling (.members [m]) x
  | member {m n : Member} {ms : List Member} {x y : Octets} (member : Spelling (.entry m) x)
      (more : Spelling (.members (n :: ms)) y) : Spelling (.members (m :: n :: ms)) (x ++ 44 :: y)

instance (x : Octets) : Decidable (IsBlank x) :=
  decidable_of_iff (x.all isSpace = true) List.all_eq_true

theorem isBlank_nil : IsBlank [] := List.forall_mem_nil _

theorem Spelling.bare {v : List Token} {x : Octets} (h : Spelling (.value v) x) :
    Spelling (.padded v) x := by
  simpa using Spelling.padded isBlank_nil h isBlank_nil

/-- Items with commas between them. -/
theorem Spelling.of_items {ps : List (List Token × Octets)} (hne : ps ≠ [])
    (h : ∀ p ∈ ps, Spelling (.padded p.1) p.2) :
    Spelling (.items (ps.map Prod.fst)) ([44].intercalate (ps.map Prod.snd)) := by
  induction ps with
  | nil => exact absurd rfl hne
  | cons p ps ih =>
    have hp := h p List.mem_cons_self
    cases ps with
    | nil => simpa using Spelling.last_item hp
    | cons q ps => simpa using Spelling.item hp (ih (by simp) fun r hr => h r (List.mem_cons_of_mem _ hr))

/-- Members with commas between them. -/
theorem Spelling.of_entries {ps : List (Member × Octets)} (hne : ps ≠ [])
    (h : ∀ p ∈ ps, Spelling (.entry p.1) p.2) :
    Spelling (.members (ps.map Prod.fst)) ([44].intercalate (ps.map Prod.snd)) := by
  induction ps with
  | nil => exact absurd rfl hne
  | cons p ps ih =>
    have hp := h p List.mem_cons_self
    cases ps with
    | nil => simpa using Spelling.last_member hp
    | cons q ps => simpa using Spelling.member hp (ih (by simp) fun r hr => h r (List.mem_cons_of_mem _ hr))

/-! ## Scanning -/

variable {acc : List Token} {rest : Octets}

theorem scanFrom_blank {x : Octets} (h : IsBlank x) : scanFrom acc (x ++ rest) = scanFrom acc rest := by
  induction x with
  | nil => rfl
  | cons b x ih =>
    rw [List.cons_append, scanFrom, if_pos (h b List.mem_cons_self)]
    exact ih fun c hc => h c (List.mem_cons_of_mem _ hc)

theorem scanFrom_listOpen : scanFrom acc (91 :: rest) = scanFrom (.listOpen :: acc) rest :=
  scanFrom_read rfl rfl

theorem scanFrom_listClose : scanFrom acc (93 :: rest) = scanFrom (.listClose :: acc) rest :=
  scanFrom_read rfl rfl

/-- White space ends a number, and so does whatever ends it behind the white space. -/
theorem IsBlank.ends {x : Octets} (h : IsBlank x) (hrest : Number.Ends rest) :
    Number.Ends (x ++ rest) := by
  cases x with
  | nil => exact hrest
  | cons c x =>
    intro b hb
    obtain rfl : c = b := Option.some.inj hb
    have hspace : ∀ c : UInt8, isSpace c = true → Number.digit? c = none ∧ c ≠ 46 ∧ c ≠ 101 ∧ c ≠ 69 := by
      intro c hc
      simp only [isSpace, Bool.or_eq_true, beq_iff_eq] at hc
      rcases hc with ((rfl | rfl) | rfl) | rfl <;> decide
    exact hspace c (h c List.mem_cons_self)

theorem ends_mark {b : UInt8} (h : b ∈ [44, 93, 125]) : Number.Ends (b :: rest) := by
  intro c hc
  obtain rfl : b = c := Option.some.inj hc
  simp only [List.mem_cons, List.not_mem_nil, or_false] at h
  rcases h with rfl | rfl | rfl <;> decide

/-- A text is scanned to the tokens of what it spells, whatever follows that is no part of a
number. -/
theorem Spelling.scanFrom_append {p : Part} {x : Octets} (h : Spelling p x)
    (hrest : Number.Ends rest) : scanFrom acc (x ++ rest) = scanFrom (p.tokens.reverse ++ acc) rest := by
  induction h generalizing acc rest with
  | null => exact scanFrom_read rfl rfl
  | true => exact scanFrom_read rfl rfl
  | false => exact scanFrom_read rfl rfl
  | number numeral => exact scanFrom_spelling numeral hrest
  | @text raw content =>
    rw [List.cons_append, List.append_assoc]
    exact scanFrom_content content
  | list inside ih =>
    rw [List.cons_append, List.append_assoc, List.singleton_append, scanFrom_listOpen,
      ih (ends_mark (by decide))]
    refine scanFrom_listClose.trans ?_
    simp [Part.tokens, listOf]
  | map inside ih =>
    rw [List.cons_append, List.append_assoc, List.singleton_append, scanFrom_mapOpen,
      ih (ends_mark (by decide))]
    refine scanFrom_mapClose.trans ?_
    simp [Part.tokens, mapOf]
  | padded blank_before value blank_behind ih =>
    rw [List.append_assoc, List.append_assoc, scanFrom_blank blank_before,
      ih (blank_behind.ends hrest), scanFrom_blank blank_behind]
    rfl
  | no_item blank => exact scanFrom_blank blank
  | last_item item ih =>
    rw [ih hrest]
    simp [Part.tokens]
  | item item more ih ih' =>
    rw [List.append_assoc, List.cons_append, ih (ends_mark (by decide)), scanFrom_comma, ih' hrest]
    simp [Part.tokens]
  | @entry m before behind x blank_before key blank_behind value ih =>
    have htext : before ++ 34 :: (m.key ++ 34 :: (behind ++ 58 :: x)) ++ rest =
        before ++ (34 :: (m.key ++ 34 :: (behind ++ (58 :: (x ++ rest))))) := by simp
    rw [htext, scanFrom_blank blank_before, scanFrom_content key, scanFrom_blank blank_behind,
      scanFrom_colon, ih hrest]
    simp [Part.tokens, Member.tokens]
  | no_member blank => exact scanFrom_blank blank
  | last_member member ih =>
    rw [ih hrest]
    simp [Part.tokens]
  | member member more ih ih' =>
    rw [List.append_assoc, List.cons_append, ih (ends_mark (by decide)), scanFrom_comma, ih' hrest]
    simp [Part.tokens]

/-- A document of one value is scanned to that value. -/
theorem Spelling.scan_eq {v : List Token} {x : Octets} (h : Spelling (.padded v) x) : scan x = v := by
  have hend : Number.Ends [] := by
    intro b hb
    cases hb
  have hscan : scanFrom [] (x ++ []) = scanFrom (v.reverse ++ []) [] := h.scanFrom_append hend
  rw [List.append_nil, List.append_nil, scanFrom_nil, List.reverse_reverse] at hscan
  exact hscan

/-! ## What is spelt is made of values -/

/-- The values that a part is made of. -/
def Part.values : Part → List (List Token)
  | value v | padded v => [v]
  | items vs => vs
  | entry m => [m.value]
  | members ms => ms.map Member.value

theorem Spelling.isValue {p : Part} {x : Octets} (h : Spelling p x) : ∀ v ∈ p.values, IsValue v := by
  induction h with
  | null => simpa [Part.values] using IsValue.null
  | true => simpa [Part.values] using IsValue.bool .true
  | false => simpa [Part.values] using IsValue.bool .false
  | @number n => simpa [Part.values] using IsValue.number n
  | @text raw => simpa [Part.values] using IsValue.text raw
  | list inside ih => simpa [Part.values] using IsValue.list ih
  | @map ms x inside ih =>
    have hmembers : ∀ m ∈ ms, IsValue m.value := fun m hm => ih _ (List.mem_map_of_mem hm)
    simpa [Part.values] using IsValue.map hmembers
  | padded blank_before value blank_behind ih => exact ih
  | no_item => simp [Part.values]
  | last_item item ih => exact ih
  | item item more ih ih' => exact List.forall_mem_cons.2 ⟨ih _ List.mem_cons_self, ih'⟩
  | entry blank_before key blank_behind value ih => exact ih
  | no_member => simp [Part.values]
  | last_member member ih => exact ih
  | member member more ih ih' => exact List.forall_mem_cons.2 ⟨ih _ List.mem_cons_self, ih'⟩

end Telemetry.Json

import RoutePolicy.Json.Printer
import RoutePolicy.Json.Reader
import RoutePolicy.Proofs.Text.Decimal

/-!
# The compact form determines a JSON value

For values without decimals, whose text is kept as it was written.

* `Json.stringBody_escapeChar`, `Json.stringBody_flatMap` — the reader undoes the escapes;
* `Json.compactChars_append_inj` — a value can be told from whatever follows it, so no two values
  have the same compact form (`Json.compact_injective`);
* `Json.le_of_mem_compactChars` — there are no control characters in a compact form.
-/

set_option autoImplicit false

namespace RoutePolicy

namespace Json

/-! ## Numbers -/

/-- The text does not begin with a digit. -/
def NoDigitHead (r : List Char) : Prop := ∀ c rest, r = c :: rest → c.isDigit = false

theorem noDigitHead_nil : NoDigitHead [] := by
  intro c rest h
  cases h

theorem noDigitHead_cons {c : Char} {r : List Char} (h : c.isDigit = false) :
    NoDigitHead (c :: r) := by
  intro c' rest h'
  cases h'
  exact h

theorem takeWhile_digits_append (n : Nat) {a : List Char} (ha : NoDigitHead a) :
    (Decimal.digits n ++ a).takeWhile Char.isDigit = Decimal.digits n := by
  have hrest : a.takeWhile Char.isDigit = [] := by
    cases a with
    | nil => rfl
    | cons c rest => rw [List.takeWhile_cons, ha c rest rfl, if_neg Bool.false_ne_true]
  rw [List.takeWhile_append_of_pos fun c hc => Decimal.isDigit_of_mem_digits hc, hrest,
    List.append_nil]

theorem digits_append_inj {n m : Nat} {a b : List Char} (ha : NoDigitHead a)
    (hb : NoDigitHead b) (h : Decimal.digits n ++ a = Decimal.digits m ++ b) : n = m ∧ a = b := by
  have hdigits : Decimal.digits n = Decimal.digits m := by
    rw [← takeWhile_digits_append n ha, h, takeWhile_digits_append m hb]
  rw [hdigits] at h
  exact ⟨Decimal.digits_injective hdigits, List.append_cancel_left h⟩

theorem digits_append_ne_minus (n : Nat) (a b : List Char) :
    Decimal.digits n ++ a ≠ '-' :: b := by
  intro h
  cases hdigits : Decimal.digits n with
  | nil => exact Decimal.digits_ne_nil n hdigits
  | cons c cs =>
    rw [hdigits, List.cons_append, List.cons.injEq] at h
    have hmem : '-' ∈ Decimal.digits n := by
      rw [hdigits, h.1]
      exact List.mem_cons_self
    exact Decimal.notMem_digits (by decide) n hmem

theorem integer_append_inj {n m : Int} {a b : List Char} (ha : NoDigitHead a)
    (hb : NoDigitHead b) (h : integer n ++ a = integer m ++ b) : n = m ∧ a = b := by
  cases n with
  | ofNat n =>
    cases m with
    | ofNat m =>
      obtain ⟨hn, hab⟩ := digits_append_inj ha hb h
      exact ⟨congrArg Int.ofNat hn, hab⟩
    | negSucc m => exact absurd h (digits_append_ne_minus n a _)
  | negSucc n =>
    cases m with
    | ofNat m => exact absurd h.symm (digits_append_ne_minus m b _)
    | negSucc m =>
      obtain ⟨hn, hab⟩ := digits_append_inj ha hb (List.cons.inj h).2
      exact ⟨congrArg Int.negSucc (Nat.succ.inj hn), hab⟩

/-! ## Strings -/

theorem number?_control {n : Nat} (h : n < 32) :
    Hexadecimal.number? ('0' :: '0' :: Hexadecimal.ofByte (UInt8.ofNat n)) = some n := by
  have all : ∀ n : Fin 32,
      Hexadecimal.number? ('0' :: '0' :: Hexadecimal.ofByte (UInt8.ofNat n.val)) = some n.val := by
    decide +kernel
  exact all ⟨n, h⟩

/-- A character that needs no escape stands for itself. -/
theorem stringBody_plain {c : Char} (hquote : c ≠ '"') (hbackslash : c ≠ '\\')
    (hcontrol : ¬ c.toNat < 32) (acc rest : List Char) :
    stringBody acc (c :: rest) = stringBody (c :: acc) rest := by
  rw [stringBody.eq_def]
  split
  · rename_i heq
    exact absurd (List.cons.inj heq).1 hquote
  · rename_i heq
    exact absurd (List.cons.inj heq).1 hbackslash
  · rename_i heq
    exact absurd (List.cons.inj heq).1 hbackslash
  · rename_i heq
    cases heq
    exact if_neg hcontrol
  · rename_i heq
    cases heq

/-- A backslash and a letter stand for what the letter stands for. -/
theorem stringBody_simple {e c : Char} (h : simpleEscape? e = some c) (acc rest : List Char) :
    stringBody acc ('\\' :: e :: rest) = stringBody (c :: acc) rest := by
  rw [stringBody.eq_def]
  split
  · rename_i heq
    exact absurd (List.cons.inj heq).1 (by decide)
  · rename_i heq
    rw [(List.cons.inj (List.cons.inj heq).2).1] at h
    cases h
  · rename_i heq
    cases heq
    simp only [h]
  · -- an earlier pattern takes every backslash that a letter follows
    rename_i hnot heq
    cases heq
    exact absurd rfl (hnot _ _ rfl)
  · rename_i heq
    cases heq

/-- Reading an escaped character gives the character. -/
theorem stringBody_escapeChar (c : Char) (acc rest : List Char) :
    stringBody acc (escapeChar c ++ rest) = stringBody (c :: acc) rest := by
  unfold escapeChar
  split
  · subst_vars
    exact stringBody_simple rfl acc rest
  split
  · subst_vars
    exact stringBody_simple rfl acc rest
  split
  · subst_vars
    exact stringBody_simple rfl acc rest
  split
  · subst_vars
    exact stringBody_simple rfl acc rest
  split
  · subst_vars
    exact stringBody_simple rfl acc rest
  split
  · subst_vars
    exact stringBody_simple rfl acc rest
  split
  · subst_vars
    exact stringBody_simple rfl acc rest
  split
  · rename_i hcontrol
    have hnumber := number?_control hcontrol
    have hhigh : ¬ (0xD800 ≤ c.toNat ∧ c.toNat < 0xDC00) := by omega
    have hlow : ¬ (0xDC00 ≤ c.toNat ∧ c.toNat < 0xE000) := by omega
    rw [Hexadecimal.ofByte] at hnumber ⊢
    simp only [List.cons_append, List.nil_append]
    rw [stringBody, hnumber]
    simp only [if_neg hhigh, if_neg hlow, Char.ofNat_toNat]
  · rename_i hquote hbackslash _ _ _ _ _ hcontrol
    exact stringBody_plain hquote hbackslash hcontrol acc rest

/-- Reading an escaped text gives the text. -/
theorem stringBody_flatMap (cs acc rest : List Char) :
    stringBody acc (cs.flatMap escapeChar ++ '"' :: rest) =
      some (String.ofList (acc.reverse ++ cs), rest) := by
  induction cs generalizing acc with
  | nil => simp [stringBody]
  | cons c cs ih =>
    rw [List.flatMap_cons, List.append_assoc, stringBody_escapeChar, ih, List.reverse_cons,
      List.append_assoc]
    rfl

theorem quoted_append_inj {s t : String} {a b : List Char}
    (h : quoted s ++ a = quoted t ++ b) : s = t ∧ a = b := by
  have hbody : s.toList.flatMap escapeChar ++ '"' :: a =
      t.toList.flatMap escapeChar ++ '"' :: b := by
    simpa [quoted] using h
  have hread := congrArg (stringBody []) hbody
  rw [stringBody_flatMap, stringBody_flatMap] at hread
  simpa using hread

/-! ## Values -/

mutual

/-- The value has no decimals. -/
def Exact : Json → Prop
  | .null | .bool _ | .int _ | .string _ => True
  | .decimal _ => False
  | .array items => ExactItems items
  | .object fields => ExactFields fields

/-- The items have no decimals. -/
def ExactItems : List Json → Prop
  | [] => True
  | v :: rest => v.Exact ∧ ExactItems rest

/-- The fields have no decimals. -/
def ExactFields : List (String × Json) → Prop
  | [] => True
  | (_, v) :: rest => v.Exact ∧ ExactFields rest

end

/-- What can be told of a value from the first character of its compact form. -/
inductive Shape where
  | null
  | truth
  | falsity
  | number
  | string
  | array
  | object
  deriving DecidableEq

/-- The shape of a value. -/
def shape : Json → Shape
  | .null => .null
  | .bool true => .truth
  | .bool false => .falsity
  | .int _ | .decimal _ => .number
  | .string _ => .string
  | .array _ => .array
  | .object _ => .object

/-- The shape of the values that begin with a character. -/
def Shape.ofHead? (c : Char) : Option Shape :=
  if c = 'n' then some .null
  else if c = 't' then some .truth
  else if c = 'f' then some .falsity
  else if c = '"' then some .string
  else if c = '[' then some .array
  else if c = '{' then some .object
  else if c.isDigit || c = '-' then some .number
  else none

theorem Shape.ofHead?_of_isDigit {c : Char} (h : c.isDigit = true) :
    ofHead? c = some .number := by
  have hne : ∀ d : Char, d.isDigit = false → c ≠ d := by
    rintro d hd rfl
    rw [h] at hd
    cases hd
  simp [ofHead?, hne 'n' (by decide), hne 't' (by decide), hne 'f' (by decide),
    hne '"' (by decide), hne '[' (by decide), hne '{' (by decide), h]

theorem head_integer (n : Int) :
    ∃ c rest, integer n = c :: rest ∧ Shape.ofHead? c = some .number := by
  cases n with
  | ofNat n =>
    cases hdigits : Decimal.digits n with
    | nil => exact absurd hdigits (Decimal.digits_ne_nil n)
    | cons c cs =>
      have hc : c ∈ Decimal.digits n := by
        rw [hdigits]
        exact List.mem_cons_self
      exact ⟨c, cs, hdigits, Shape.ofHead?_of_isDigit (Decimal.isDigit_of_mem_digits hc)⟩
  | negSucc n => exact ⟨'-', _, rfl, rfl⟩

/-- The first character of a compact form tells the shape of the value. -/
theorem head_compactChars {v : Json} (hv : v.Exact) :
    ∃ c rest, compactChars v = c :: rest ∧ Shape.ofHead? c = some v.shape := by
  cases v with
  | null => exact ⟨'n', _, rfl, rfl⟩
  | bool b =>
    cases b with
    | true => exact ⟨'t', _, rfl, rfl⟩
    | false => exact ⟨'f', _, rfl, rfl⟩
  | int n => exact head_integer n
  | decimal text => exact absurd hv id
  | string s => exact ⟨'"', _, rfl, rfl⟩
  | array items => exact ⟨'[', _, rfl, rfl⟩
  | object fields => exact ⟨'{', _, rfl, rfl⟩

/-- Values with the same text have the same shape. -/
theorem shape_eq {v w : Json} (hv : v.Exact) (hw : w.Exact) {a b : List Char}
    (h : compactChars v ++ a = compactChars w ++ b) : v.shape = w.shape := by
  obtain ⟨c, rest, hc, hshape⟩ := head_compactChars hv
  obtain ⟨d, rest', hd, hshape'⟩ := head_compactChars hw
  rw [hc, hd, List.cons_append, List.cons_append, List.cons.injEq] at h
  rw [h.1, hshape', Option.some.injEq] at hshape
  exact hshape.symm

/-- No value begins with a character that closes or separates. -/
theorem compactChars_append_ne {v : Json} (hv : v.Exact) {c : Char}
    (hc : Shape.ofHead? c = none) (a b : List Char) : compactChars v ++ a ≠ c :: b := by
  intro h
  obtain ⟨d, rest, hd, hshape⟩ := head_compactChars hv
  rw [hd, List.cons_append, List.cons.injEq] at h
  rw [h.1, hc] at hshape
  cases hshape

/-- What follows the first item of an array. -/
def itemsTail : List Json → List Char
  | [] => []
  | v :: rest => ',' :: compactItems (v :: rest)

theorem compactItems_cons (v : Json) (rest : List Json) :
    compactItems (v :: rest) = compactChars v ++ itemsTail rest := by
  cases rest with
  | nil => rw [compactItems, itemsTail, List.append_nil]
  | cons w rest => rw [compactItems, itemsTail]; exact List.cons_ne_nil _ _

/-- What follows the first field of an object. -/
def fieldsTail : List (String × Json) → List Char
  | [] => []
  | e :: rest => ',' :: compactFields (e :: rest)

theorem compactFields_cons (k : String) (v : Json) (rest : List (String × Json)) :
    compactFields ((k, v) :: rest) = quoted k ++ ':' :: (compactChars v ++ fieldsTail rest) := by
  cases rest with
  | nil => rw [compactFields, fieldsTail, List.append_nil]
  | cons e rest => rw [compactFields, fieldsTail]; exact List.cons_ne_nil _ _

theorem noDigitHead_itemsTail (vs : List Json) (a : List Char) :
    NoDigitHead (itemsTail vs ++ ']' :: a) := by
  cases vs with
  | nil => exact noDigitHead_cons (by decide)
  | cons v vs => exact noDigitHead_cons (by decide)

theorem noDigitHead_fieldsTail (es : List (String × Json)) (a : List Char) :
    NoDigitHead (fieldsTail es ++ '}' :: a) := by
  cases es with
  | nil => exact noDigitHead_cons (by decide)
  | cons e es => exact noDigitHead_cons (by decide)

mutual

/-- **A value can be told from what follows it**, unless digits follow. -/
theorem compactChars_append_inj : (v w : Json) → v.Exact → w.Exact → {a b : List Char} →
    NoDigitHead a → NoDigitHead b → compactChars v ++ a = compactChars w ++ b → v = w ∧ a = b
  | .null, w, hv, hw, a, b, _, _, h => by
    have hshape := shape_eq hv hw h
    cases w with
    | null => exact ⟨rfl, List.append_cancel_left h⟩
    | bool b => cases b <;> cases hshape
    | _ => cases hshape
  | .bool true, w, hv, hw, a, b, _, _, h => by
    have hshape := shape_eq hv hw h
    cases w with
    | bool b =>
      cases b with
      | true => exact ⟨rfl, List.append_cancel_left h⟩
      | false => cases hshape
    | _ => cases hshape
  | .bool false, w, hv, hw, a, b, _, _, h => by
    have hshape := shape_eq hv hw h
    cases w with
    | bool b =>
      cases b with
      | true => cases hshape
      | false => exact ⟨rfl, List.append_cancel_left h⟩
    | _ => cases hshape
  | .int n, w, hv, hw, a, b, ha, hb, h => by
    have hshape := shape_eq hv hw h
    cases w with
    | int m =>
      obtain ⟨hn, hab⟩ := integer_append_inj ha hb h
      exact ⟨congrArg int hn, hab⟩
    | decimal text => exact absurd hw id
    | bool b => cases b <;> cases hshape
    | _ => cases hshape
  | .decimal _, _, hv, _, _, _, _, _, _ => absurd hv id
  | .string s, w, hv, hw, a, b, _, _, h => by
    have hshape := shape_eq hv hw h
    cases w with
    | string t =>
      obtain ⟨hs, hab⟩ := quoted_append_inj h
      exact ⟨congrArg string hs, hab⟩
    | bool b => cases b <;> cases hshape
    | _ => cases hshape
  | .array vs, w, hv, hw, a, b, _, _, h => by
    have hshape := shape_eq hv hw h
    cases w with
    | array ws =>
      have hitems : compactItems vs ++ ']' :: a = compactItems ws ++ ']' :: b := by
        simpa [compactChars] using h
      obtain ⟨hvs, hab⟩ := compactItems_append_inj vs ws hv hw hitems
      exact ⟨congrArg array hvs, hab⟩
    | bool b => cases b <;> cases hshape
    | _ => cases hshape
  | .object es, w, hv, hw, a, b, _, _, h => by
    have hshape := shape_eq hv hw h
    cases w with
    | object fs =>
      have hfields : compactFields es ++ '}' :: a = compactFields fs ++ '}' :: b := by
        simpa [compactChars] using h
      obtain ⟨hes, hab⟩ := compactFields_append_inj es fs hv hw hfields
      exact ⟨congrArg object hes, hab⟩
    | bool b => cases b <;> cases hshape
    | _ => cases hshape

theorem compactItems_append_inj : (vs ws : List Json) → ExactItems vs → ExactItems ws →
    {a b : List Char} → compactItems vs ++ ']' :: a = compactItems ws ++ ']' :: b →
      vs = ws ∧ a = b
  | [], [], _, _, a, b, h => ⟨rfl, (List.cons.inj h).2⟩
  | [], w :: ws, _, hw, a, b, h => by
    rw [compactItems_cons, List.append_assoc] at h
    exact absurd h.symm (compactChars_append_ne hw.1 (by decide) _ _)
  | v :: vs, [], hv, _, a, b, h => by
    rw [compactItems_cons, List.append_assoc] at h
    exact absurd h (compactChars_append_ne hv.1 (by decide) _ _)
  | v :: vs, w :: ws, hv, hw, a, b, h => by
    rw [compactItems_cons, compactItems_cons, List.append_assoc, List.append_assoc] at h
    obtain ⟨rfl, htail⟩ := compactChars_append_inj v w hv.1 hw.1 (noDigitHead_itemsTail vs a)
      (noDigitHead_itemsTail ws b) h
    cases vs with
    | nil =>
      cases ws with
      | nil => exact ⟨rfl, (List.cons.inj htail).2⟩
      | cons w' ws => exact absurd (List.cons.inj htail).1 (by decide)
    | cons v' vs =>
      cases ws with
      | nil => exact absurd (List.cons.inj htail).1 (by decide)
      | cons w' ws =>
        obtain ⟨hvs, hab⟩ := compactItems_append_inj (v' :: vs) (w' :: ws) hv.2 hw.2
          (List.cons.inj htail).2
        exact ⟨congrArg (v :: ·) hvs, hab⟩

theorem compactFields_append_inj : (es fs : List (String × Json)) → ExactFields es →
    ExactFields fs → {a b : List Char} →
      compactFields es ++ '}' :: a = compactFields fs ++ '}' :: b → es = fs ∧ a = b
  | [], [], _, _, a, b, h => ⟨rfl, (List.cons.inj h).2⟩
  | [], (k, w) :: fs, _, _, a, b, h => by
    rw [compactFields_cons, quoted] at h
    exact absurd (List.cons.inj h).1 (by decide)
  | (k, v) :: es, [], _, _, a, b, h => by
    rw [compactFields_cons, quoted] at h
    exact absurd (List.cons.inj h).1 (by decide)
  | (k, v) :: es, (l, w) :: fs, hv, hw, a, b, h => by
    rw [compactFields_cons, compactFields_cons, List.append_assoc, List.append_assoc] at h
    obtain ⟨rfl, hcolon⟩ := quoted_append_inj h
    have hvalue : compactChars v ++ (fieldsTail es ++ '}' :: a) =
        compactChars w ++ (fieldsTail fs ++ '}' :: b) := by
      simpa using hcolon
    obtain ⟨rfl, htail⟩ := compactChars_append_inj v w hv.1 hw.1 (noDigitHead_fieldsTail es a)
      (noDigitHead_fieldsTail fs b) hvalue
    cases es with
    | nil =>
      cases fs with
      | nil => exact ⟨rfl, (List.cons.inj htail).2⟩
      | cons f fs => exact absurd (List.cons.inj htail).1 (by decide)
    | cons e es =>
      cases fs with
      | nil => exact absurd (List.cons.inj htail).1 (by decide)
      | cons f fs =>
        obtain ⟨hes, hab⟩ := compactFields_append_inj (e :: es) (f :: fs) hv.2 hw.2
          (List.cons.inj htail).2
        exact ⟨congrArg ((k, v) :: ·) hes, hab⟩

end

/-- Distinct values have distinct compact forms. -/
theorem compact_injective {v w : Json} (hv : v.Exact) (hw : w.Exact)
    (h : v.compact = w.compact) : v = w := by
  have hchars : compactChars v ++ [] = compactChars w ++ [] := by
    rw [List.append_nil, List.append_nil]
    exact String.ofList_injective h
  exact (compactChars_append_inj v w hv hw noDigitHead_nil noDigitHead_nil hchars).1

/-! ## Control characters -/

theorem le_of_all {l : List Char} (h : (l.all fun c => decide (32 ≤ c.toNat)) = true) :
    ∀ c ∈ l, 32 ≤ c.toNat := by
  intro c hc
  exact of_decide_eq_true (List.all_eq_true.mp h c hc)

theorem le_of_isDigit {c : Char} (h : c.isDigit = true) : 32 ≤ c.toNat := by
  have hrange : 48 ≤ c.toNat ∧ c.toNat ≤ 57 := by
    simp only [Char.isDigit, Bool.and_eq_true, decide_eq_true_eq] at h
    exact h
  omega

theorem le_of_mem_integer {n : Int} {c : Char} (h : c ∈ integer n) : 32 ≤ c.toNat := by
  cases n with
  | ofNat n => exact le_of_isDigit (Decimal.isDigit_of_mem_digits h)
  | negSucc n =>
    rcases List.mem_cons.mp h with rfl | h
    · decide
    · exact le_of_isDigit (Decimal.isDigit_of_mem_digits h)

theorem le_of_mem_pair {d e : Char} (he : 32 ≤ e.toNat) (h : d ∈ ['\\', e]) : 32 ≤ d.toNat := by
  rw [List.mem_cons, List.mem_singleton] at h
  rcases h with rfl | rfl
  · decide
  · exact he

theorem le_of_mem_control {n : Nat} (hn : n < 32) {d : Char}
    (h : d ∈ '\\' :: 'u' :: '0' :: '0' :: Hexadecimal.ofByte (UInt8.ofNat n)) :
    32 ≤ d.toNat := by
  have all : ∀ n : Fin 32, (('\\' :: 'u' :: '0' :: '0' ::
      Hexadecimal.ofByte (UInt8.ofNat n.val)).all fun d => decide (32 ≤ d.toNat)) = true := by
    decide +kernel
  exact le_of_all (all ⟨n, hn⟩) d h

/-- Escaping leaves no control characters. -/
theorem le_of_mem_escapeChar {c d : Char} (h : d ∈ escapeChar c) : 32 ≤ d.toNat := by
  unfold escapeChar at h
  split at h
  · exact le_of_mem_pair (by decide) h
  split at h
  · exact le_of_mem_pair (by decide) h
  split at h
  · exact le_of_mem_pair (by decide) h
  split at h
  · exact le_of_mem_pair (by decide) h
  split at h
  · exact le_of_mem_pair (by decide) h
  split at h
  · exact le_of_mem_pair (by decide) h
  split at h
  · exact le_of_mem_pair (by decide) h
  split at h
  · rename_i hcontrol
    exact le_of_mem_control hcontrol h
  · rename_i hcontrol
    rw [List.mem_singleton] at h
    subst h
    omega

theorem le_of_mem_quoted {s : String} {c : Char} (h : c ∈ quoted s) : 32 ≤ c.toNat := by
  rw [quoted, List.mem_cons, List.mem_append, List.mem_flatMap, List.mem_singleton] at h
  rcases h with rfl | ⟨d, -, hd⟩ | rfl
  · decide
  · exact le_of_mem_escapeChar hd
  · decide

mutual

/-- There are no control characters in a compact form. -/
theorem le_of_mem_compactChars : (v : Json) → v.Exact → ∀ c ∈ compactChars v, 32 ≤ c.toNat
  | .null, _ => le_of_all (by decide)
  | .bool true, _ => le_of_all (by decide)
  | .bool false, _ => le_of_all (by decide)
  | .int _, _ => fun _ h => le_of_mem_integer h
  | .decimal _, hv => absurd hv id
  | .string _, _ => fun _ h => le_of_mem_quoted h
  | .array vs, hv => by
    intro c h
    rw [compactChars, List.mem_cons, List.mem_append, List.mem_singleton] at h
    rcases h with rfl | h | rfl
    · decide
    · exact le_of_mem_compactItems vs hv c h
    · decide
  | .object es, hv => by
    intro c h
    rw [compactChars, List.mem_cons, List.mem_append, List.mem_singleton] at h
    rcases h with rfl | h | rfl
    · decide
    · exact le_of_mem_compactFields es hv c h
    · decide

theorem le_of_mem_compactItems : (vs : List Json) → ExactItems vs →
    ∀ c ∈ compactItems vs, 32 ≤ c.toNat
  | [], _ => by
    intro c h
    cases h
  | v :: vs, hv => by
    intro c h
    rw [compactItems_cons, List.mem_append] at h
    rcases h with h | h
    · exact le_of_mem_compactChars v hv.1 c h
    · cases vs with
      | nil => cases h
      | cons w ws =>
        rcases List.mem_cons.mp h with rfl | h
        · decide
        · exact le_of_mem_compactItems (w :: ws) hv.2 c h

theorem le_of_mem_compactFields : (es : List (String × Json)) → ExactFields es →
    ∀ c ∈ compactFields es, 32 ≤ c.toNat
  | [], _ => by
    intro c h
    cases h
  | (k, v) :: es, hv => by
    intro c h
    rw [compactFields_cons, List.mem_append, List.mem_cons, List.mem_append] at h
    rcases h with h | rfl | h | h
    · exact le_of_mem_quoted h
    · decide
    · exact le_of_mem_compactChars v hv.1 c h
    · cases es with
      | nil => cases h
      | cons e es =>
        rcases List.mem_cons.mp h with rfl | h
        · decide
        · exact le_of_mem_compactFields (e :: es) hv.2 c h

end

end Json

end RoutePolicy

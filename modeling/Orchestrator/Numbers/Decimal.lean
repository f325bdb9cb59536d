import Mathlib.Data.List.DropRight
import Orchestrator.Numbers.Double

/-!
# Numbers as text

* `stringToNumber`: `Number(text)`, with its whitespace, signs, fractions, exponents and
  radix prefixes;
* `shortest`: the shortest decimal that rounds to a double;
* `JsNumber.text`: `String(number)`;
* `stringToNumber_text`: what is printed is read back.

Texts are lists of characters.
-/

namespace Numbers

/-! ## Reading -/

/-- `WhiteSpace` and `LineTerminator`. -/
def isWhiteSpace (c : Char) : Bool :=
  c.toNat ∈ [0x9, 0xa, 0xb, 0xc, 0xd, 0x20, 0xa0, 0x1680, 0x2028, 0x2029, 0x202f, 0x205f, 0x3000,
    0xfeff] || (0x2000 ≤ c.toNat && c.toNat ≤ 0x200a)

def trim (cs : List Char) : List Char := (cs.dropWhile isWhiteSpace).rdropWhile isWhiteSpace

/-- The value of decimal digits. -/
def digitsValue (ds : List Char) : ℕ := Nat.ofDigitChars 10 ds 0

def radixOf (c : Char) : Option ℕ :=
  if c = 'x' ∨ c = 'X' then some 16
  else if c = 'o' ∨ c = 'O' then some 8
  else if c = 'b' ∨ c = 'B' then some 2
  else none

def digitIn (radix : ℕ) (c : Char) : Option ℕ :=
  let value :=
    if '0' ≤ c ∧ c ≤ '9' then c.toNat - '0'.toNat
    else if 'a' ≤ c ∧ c ≤ 'f' then c.toNat - 'a'.toNat + 10
    else if 'A' ≤ c ∧ c ≤ 'F' then c.toNat - 'A'.toNat + 10
    else 16
  if value < radix then some value else none

/-- `NonDecimalIntegerLiteral`: none for a text without a radix prefix, and no value for a text
with one and no digits, or other characters. -/
def nonDecimalLiteral : List Char → Option (Option ℕ)
  | '0' :: c :: ds => (radixOf c).map fun radix =>
    if ds = [] then none
    else ds.foldlM (fun value d => (digitIn radix d).map (radix * value + ·)) 0
  | _ => none

/-- A sign, and what follows it. -/
def signed : List Char → Bool × List Char
  | '+' :: cs => (false, cs)
  | '-' :: cs => (true, cs)
  | cs => (false, cs)

/-- `ExponentPart`, which may be missing. -/
def exponentPart : List Char → Option ℤ
  | [] => some 0
  | c :: cs =>
    let (negative, ds) := signed cs
    if (c = 'e' ∨ c = 'E') ∧ ds ≠ [] ∧ ds.all Char.isDigit then
      some (if negative then -digitsValue ds else digitsValue ds)
    else none

/-- The digits after a point, if there is one, and the rest of the text. -/
def fractionPart : List Char → List Char × List Char
  | '.' :: cs => (cs.takeWhile Char.isDigit, cs.dropWhile Char.isDigit)
  | cs => ([], cs)

/-- `StrUnsignedDecimalLiteral` other than `Infinity`. -/
def decimalLiteral (cs : List Char) : Option ℚ :=
  let whole := cs.takeWhile Char.isDigit
  let (fraction, rest) := fractionPart (cs.dropWhile Char.isDigit)
  if whole = [] ∧ fraction = [] then none
  else (exponentPart rest).map fun e =>
    (digitsValue (whole ++ fraction) : ℚ) * 10 ^ (e - (fraction.length : ℤ))

/-- `Number(text)`. -/
def stringToNumber (cs : List Char) : JsNumber :=
  let t := trim cs
  if t = [] then .round false 0
  else
    match nonDecimalLiteral t with
    | some none => .nan
    | some (some n) => .round false n
    | none =>
      let (negative, u) := signed t
      if u = "Infinity".toList then .infinity negative
      else
        match decimalLiteral u with
        | none => .nan
        | some q => .round negative q

/-! ## Printing -/

/-- The two decimals next to `x` with `e` as the exponent of their last digit, the nearer one
first. -/
def candidates (x : ℚ) (e : ℤ) : List ℕ :=
  let below := ⌊x / 10 ^ e⌋₊
  let distance := x / 10 ^ e - below
  if distance < 1 / 2 ∨ (distance = 1 / 2 ∧ below % 2 = 0) then [below, below + 1]
  else [below + 1, below]

/-- The first decimal that rounds to `x`, with more and more digits. -/
def shortestFrom (x : ℚ) : ℕ → ℤ → Option (ℕ × ℤ)
  | 0, _ => none
  | fuel + 1, e =>
    match (candidates x e).find? fun s : ℕ => decide (roundDouble ((s : ℚ) * 10 ^ e) = some x) with
    | some s => some (s, e)
    | none => shortestFrom x fuel (e - 1)

/-- One digit that is carried over. -/
def carry : ℕ × ℤ → ℕ × ℤ
  | (s, e) => if s = 10 then (1, e + 1) else (s, e)

/-- The decimal with the fewest digits that rounds to `x`: its digits as a number, and the
exponent of the last one. -/
def shortest (x : ℚ) : ℕ × ℤ :=
  ((shortestFrom x (Int.log 10 x + 1075).toNat (Int.log 10 x)).map carry).getD (0, 0)

/-- The exponent of a decimal in scientific notation, as written. -/
def exponentText (n : ℤ) : List Char :=
  'e' :: (if n < 0 then '-' else '+') :: Nat.toDigits 10 n.natAbs

/-- The decimal `s * 10 ^ e` as `Number::toString` writes it. -/
def numeral (s : ℕ) (e : ℤ) : List Char :=
  let ds := Nat.toDigits 10 s
  let n : ℤ := e + ds.length
  if 0 ≤ e ∧ n ≤ 21 then ds ++ List.replicate e.toNat '0'
  else if 0 < n ∧ n ≤ 21 then ds.take n.toNat ++ '.' :: ds.drop n.toNat
  else if -6 < n ∧ n ≤ 0 then '0' :: '.' :: (List.replicate (-n).toNat '0' ++ ds)
  else
    match ds with
    | d :: d' :: rest => d :: '.' :: (d' :: rest ++ exponentText (n - 1))
    | _ => ds ++ exponentText (n - 1)

/-- `String(number)`. -/
def JsNumber.text : JsNumber → List Char
  | nan => "NaN".toList
  | infinity false => "Infinity".toList
  | infinity true => "-Infinity".toList
  | finite negative x =>
    if x.value = 0 then ['0']
    else (if negative then ['-'] else []) ++ numeral (shortest x.value).1 (shortest x.value).2

/-! ## Reading a numeral -/

/-- The text does not go on with a digit. -/
def NoDigit (t : List Char) : Prop := ∀ c ∈ t.head?, c.isDigit = false

theorem takeWhile_digits {ds t : List Char} (hds : ∀ c ∈ ds, c.isDigit = true) (ht : NoDigit t) :
    (ds ++ t).takeWhile Char.isDigit = ds := by
  rw [List.takeWhile_append_of_pos hds]
  cases t with
  | nil => simp
  | cons c t => simp [ht c rfl]

theorem dropWhile_digits {ds t : List Char} (hds : ∀ c ∈ ds, c.isDigit = true) (ht : NoDigit t) :
    (ds ++ t).dropWhile Char.isDigit = t := by
  rw [List.dropWhile_append_of_pos hds]
  cases t with
  | nil => rfl
  | cons c t => simp [ht c rfl]

theorem isDigit_toDigits {n : ℕ} : ∀ c ∈ Nat.toDigits 10 n, c.isDigit = true := fun _ hc =>
  Nat.isDigit_of_mem_toDigits (by decide) (by decide) hc

theorem isDigit_replicate {n : ℕ} : ∀ c ∈ List.replicate n '0', c.isDigit = true := by
  intro c hc
  rw [List.eq_of_mem_replicate hc]
  rfl

theorem digitsValue_toDigits (n : ℕ) : digitsValue (Nat.toDigits 10 n) = n :=
  Nat.ofDigitChars_ten_toDigits

theorem digitsValue_append_zeros (ds : List Char) (n : ℕ) :
    digitsValue (ds ++ List.replicate n '0') = 10 ^ n * digitsValue ds := by
  rw [digitsValue, Nat.ofDigitChars_append, Nat.ofDigitChars_replicate_zero]
  rfl

theorem digitsValue_zeros_append (n : ℕ) (ds : List Char) :
    digitsValue (List.replicate n '0' ++ ds) = digitsValue ds := by
  rw [digitsValue, Nat.ofDigitChars_append, Nat.ofDigitChars_replicate_zero, Nat.mul_zero]
  rfl

@[simp] theorem exponentPart_nil : exponentPart [] = some 0 := rfl

theorem exponentPart_text (n : ℤ) : exponentPart (exponentText n) = some n := by
  unfold exponentPart exponentText
  by_cases hn : n < 0
  · simp only [if_pos hn, signed]
    rw [if_pos ⟨by simp, Nat.toDigits_ne_nil, List.all_eq_true.mpr isDigit_toDigits⟩]
    simp only [if_true, digitsValue_toDigits]
    congr 1
    omega
  · simp only [if_neg hn, signed]
    rw [if_pos ⟨by simp, Nat.toDigits_ne_nil, List.all_eq_true.mpr isDigit_toDigits⟩]
    simp only [Bool.false_eq_true, if_false, digitsValue_toDigits]
    congr 1
    omega

/-- A literal without a point. -/
theorem decimalLiteral_whole {whole rest : List Char} (hwhole : ∀ c ∈ whole, c.isDigit = true)
    (hne : whole ≠ []) (hrest : NoDigit rest) (hpoint : fractionPart rest = ([], rest)) :
    decimalLiteral (whole ++ rest) =
      (exponentPart rest).map fun e => (digitsValue whole : ℚ) * 10 ^ e := by
  unfold decimalLiteral
  simp only [takeWhile_digits hwhole hrest, dropWhile_digits hwhole hrest, hpoint]
  rw [if_neg fun h => hne h.1]
  simp

/-- A literal with a point. -/
theorem decimalLiteral_point {whole fraction rest : List Char}
    (hwhole : ∀ c ∈ whole, c.isDigit = true) (hne : whole ≠ [])
    (hfraction : ∀ c ∈ fraction, c.isDigit = true) (hrest : NoDigit rest) :
    decimalLiteral (whole ++ '.' :: (fraction ++ rest)) = (exponentPart rest).map fun e =>
      (digitsValue (whole ++ fraction) : ℚ) * 10 ^ (e - (fraction.length : ℤ)) := by
  have hpoint : NoDigit ('.' :: (fraction ++ rest)) := by
    rintro _ ⟨⟩
    rfl
  unfold decimalLiteral
  simp only [takeWhile_digits hwhole hpoint, dropWhile_digits hwhole hpoint, fractionPart,
    takeWhile_digits hfraction hrest, dropWhile_digits hfraction hrest]
  rw [if_neg fun h => hne h.1]

theorem noDigit_nil : NoDigit [] := fun _ h => nomatch h

theorem noDigit_exponentText (n : ℤ) : NoDigit (exponentText n) := by
  rintro _ ⟨⟩
  rfl

/-- A numeral is read as the decimal it is written for. -/
theorem decimalLiteral_numeral (s : ℕ) (e : ℤ) :
    decimalLiteral (numeral s e) = some ((s : ℚ) * 10 ^ e) := by
  have hten : (10 : ℚ) ≠ 0 := by norm_num
  have hne : Nat.toDigits 10 s ≠ [] := Nat.toDigits_ne_nil
  have hlength : 0 < (Nat.toDigits 10 s).length := List.length_pos_of_ne_nil hne
  unfold numeral
  simp only
  split_ifs with hwhole hpoint hsmall
  · -- an integer with zeros at its end
    have hdigits : ∀ c ∈ Nat.toDigits 10 s ++ List.replicate e.toNat '0', c.isDigit = true := by
      intro c hc
      exact (List.mem_append.mp hc).elim (isDigit_toDigits c) (isDigit_replicate c)
    have hread := decimalLiteral_whole hdigits (by simp [hne]) noDigit_nil rfl
    rw [List.append_nil] at hread
    rw [hread, exponentPart_nil, Option.map_some, digitsValue_append_zeros, digitsValue_toDigits]
    rw [zpow_zero, mul_one, Nat.cast_mul, Nat.cast_pow, Nat.cast_ofNat, mul_comm, ← zpow_natCast,
      Int.toNat_of_nonneg hwhole.1]
  · -- a point within the digits
    have hread := @decimalLiteral_point
      ((Nat.toDigits 10 s).take (e + (Nat.toDigits 10 s).length).toNat)
      ((Nat.toDigits 10 s).drop (e + (Nat.toDigits 10 s).length).toNat) _
      (fun c hc => isDigit_toDigits c (List.mem_of_mem_take hc))
      (by
        rw [Ne, List.take_eq_nil_iff]
        rintro (h | h)
        · omega
        · exact hne h)
      (fun c hc => isDigit_toDigits c (List.mem_of_mem_drop hc)) noDigit_nil
    rw [List.append_nil] at hread
    rw [hread, exponentPart_nil, Option.map_some, List.take_append_drop, digitsValue_toDigits,
      List.length_drop]
    congr 3
    have hlarge : ¬(0 ≤ e) := fun h => hwhole ⟨h, hpoint.2⟩
    omega
  · -- zeros after the point
    have hread := @decimalLiteral_point ['0']
      (List.replicate (-(e + (Nat.toDigits 10 s).length)).toNat '0' ++ Nat.toDigits 10 s) _
      (by simp) (by simp)
      (fun c hc => (List.mem_append.mp hc).elim (isDigit_replicate c) (isDigit_toDigits c))
      noDigit_nil
    rw [List.append_nil] at hread
    have hzero : digitsValue (['0'] ++ (List.replicate
        (-(e + (Nat.toDigits 10 s).length)).toNat '0' ++ Nat.toDigits 10 s)) = s := by
      rw [← List.append_assoc, show ['0'] = List.replicate 1 '0' from rfl,
        ← List.replicate_add, digitsValue_zeros_append, digitsValue_toDigits]
    rw [hzero] at hread
    rw [show ∀ t : List Char, '0' :: '.' :: t = ['0'] ++ '.' :: t from fun _ => rfl, hread,
      exponentPart_nil, Option.map_some, List.length_append, List.length_replicate]
    congr 3
    omega
  · -- scientific notation
    split
    · next d d' rest hds =>
      have hmem : ∀ c ∈ d :: d' :: rest, c.isDigit = true := hds ▸ isDigit_toDigits
      have hread := @decimalLiteral_point [d] (d' :: rest) _
        (fun c hc => hmem c (by simp_all)) (by simp)
        (fun c hc => hmem c (List.mem_cons_of_mem _ hc))
        (noDigit_exponentText (e + (Nat.toDigits 10 s).length - 1))
      have hvalue : digitsValue ([d] ++ (d' :: rest)) = s := by
        rw [List.singleton_append, ← hds, digitsValue_toDigits]
      rw [hvalue, exponentPart_text, Option.map_some] at hread
      rw [hds] at hread ⊢
      refine hread.trans ?_
      congr 3
      simp only [List.length_cons]
      push_cast
      ring
    · next hshort =>
      have hone : (Nat.toDigits 10 s).length = 1 := by
        rcases hds : Nat.toDigits 10 s with _ | ⟨d, _ | ⟨d', rest⟩⟩
        · exact absurd hds hne
        · rfl
        · exact absurd hds (hshort d d' rest)
      have hread := decimalLiteral_whole (isDigit_toDigits (n := s)) hne
        (noDigit_exponentText (e + (Nat.toDigits 10 s).length - 1)) rfl
      rw [hread, exponentPart_text, Option.map_some, digitsValue_toDigits, hone]
      congr 3
      push_cast
      ring

/-! ## The shortest decimal -/

theorem shortestFrom_rounds {x : ℚ} {fuel : ℕ} {e e' : ℤ} {s : ℕ}
    (h : shortestFrom x fuel e = some (s, e')) : roundDouble ((s : ℚ) * 10 ^ e') = some x := by
  induction fuel generalizing e with
  | zero => cases h
  | succ fuel ih =>
    unfold shortestFrom at h
    split at h
    · next s' hfound =>
      cases h
      simpa using List.find?_some hfound
    · exact ih h

/-- The search ends where a multiple of a power of ten is the double itself. -/
theorem shortestFrom_isSome {x : ℚ} (hx : roundDouble x = some x) {n : ℕ} {e₀ : ℤ}
    (hn : x = n * 10 ^ e₀) (fuel : ℕ) {e : ℤ} (he : e₀ ≤ e) (hfuel : e - e₀ < fuel) :
    (shortestFrom x fuel e).isSome = true := by
  induction fuel generalizing e with
  | zero => simp at hfuel; omega
  | succ fuel ih =>
    unfold shortestFrom
    split
    · rfl
    · next hnone =>
      refine ih ?_ (by push_cast at hfuel; omega)
      by_contra hlt
      obtain rfl : e = e₀ := by omega
      have hquotient : x / 10 ^ e = n := by
        rw [div_eq_iff (by positivity)]
        exact hn
      have hmem : n ∈ candidates x e := by
        unfold candidates
        simp only [hquotient, Nat.floor_natCast, sub_self]
        rw [if_pos (.inl (by norm_num))]
        exact List.mem_cons_self
      have hrounds := List.find?_eq_none.mp hnone n hmem
      rw [← hn, hx] at hrounds
      simp at hrounds

/-- Every double is a multiple of a power of ten. -/
theorem Double.decimal (x : Double) : ∃ n : ℕ, x.value = (n : ℚ) * 10 ^ (-1074 : ℤ) := by
  obtain ⟨n, hn⟩ := x.integral
  refine ⟨n * 5 ^ 1074, ?_⟩
  have hsplit : ∀ k : ℕ, (n : ℚ) * 2 ^ (-(k : ℤ)) = ((n * 5 ^ k : ℕ) : ℚ) * 10 ^ (-(k : ℤ)) := by
    intro k
    rw [Nat.cast_mul, Nat.cast_pow, Nat.cast_ofNat, mul_assoc]
    congr 1
    rw [zpow_neg, zpow_neg, zpow_natCast, zpow_natCast, show (10 : ℚ) = 5 * 2 by norm_num, mul_pow]
    field_simp
  rw [hn]
  exact hsplit 1074

theorem value_carry (d : ℕ × ℤ) :
    ((carry d).1 : ℚ) * 10 ^ (carry d).2 = (d.1 : ℚ) * 10 ^ d.2 := by
  obtain ⟨s, e⟩ := d
  unfold carry
  simp only
  split_ifs with hs
  · subst hs
    simp only
    rw [zpow_add₀ (by norm_num)]
    push_cast
    ring
  · rfl

/-- The shortest decimal of a double rounds to it. -/
theorem shortest_rounds (x : Double) (hx : x.value ≠ 0) :
    roundDouble (((shortest x.value).1 : ℚ) * 10 ^ (shortest x.value).2) = some x.value := by
  obtain ⟨n, hn⟩ := x.decimal
  have hpos : 0 < x.value := lt_of_le_of_ne x.nonneg (Ne.symm hx)
  have hone : 1 ≤ n := by
    rcases Nat.eq_zero_or_pos n with rfl | h
    · rw [Nat.cast_zero, zero_mul] at hn
      exact absurd hn hx
    · exact h
  have hlog : -1074 ≤ Int.log 10 x.value := by
    rw [← Int.zpow_le_iff_le_log (by norm_num) hpos, hn, Nat.cast_ofNat]
    refine le_mul_of_one_le_left (zpow_nonneg (by norm_num) _) ?_
    exact_mod_cast hone
  have hsome := shortestFrom_isSome x.rounded hn (Int.log 10 x.value + 1075).toNat hlog (by omega)
  obtain ⟨d, hd⟩ := Option.isSome_iff_exists.mp hsome
  unfold shortest
  rw [hd, Option.map_some, Option.getD_some, value_carry]
  exact shortestFrom_rounds hd

/-! ## Reading what is printed -/

/-- The characters of a numeral. -/
def isNumeralChar (c : Char) : Bool := c.isDigit || c ∈ ['.', 'e', '+', '-']

theorem isNumeralChar_of_isDigit {c : Char} (h : c.isDigit = true) : isNumeralChar c = true := by
  rw [isNumeralChar, h, Bool.true_or]

theorem isNumeralChar_exponentText (n : ℤ) : ∀ c ∈ exponentText n, isNumeralChar c = true := by
  intro c hc
  unfold exponentText at hc
  rcases List.mem_cons.mp hc with rfl | hc
  · rfl
  · rcases List.mem_cons.mp hc with rfl | hc
    · split <;> rfl
    · exact isNumeralChar_of_isDigit (isDigit_toDigits c hc)

theorem isNumeralChar_numeral (s : ℕ) (e : ℤ) : ∀ c ∈ numeral s e, isNumeralChar c = true := by
  have hdigits : ∀ c ∈ Nat.toDigits 10 s, isNumeralChar c = true :=
    fun c hc => isNumeralChar_of_isDigit (isDigit_toDigits c hc)
  have hzeros : ∀ n, ∀ c ∈ List.replicate n '0', isNumeralChar c = true :=
    fun n c hc => isNumeralChar_of_isDigit (isDigit_replicate c hc)
  have hpoint : isNumeralChar '.' = true := rfl
  unfold numeral
  simp only
  split_ifs
  · exact List.forall_mem_append.mpr ⟨hdigits, hzeros _⟩
  · refine List.forall_mem_append.mpr ⟨fun c hc => hdigits c (List.mem_of_mem_take hc), ?_⟩
    exact List.forall_mem_cons.mpr ⟨hpoint, fun c hc => hdigits c (List.mem_of_mem_drop hc)⟩
  · refine List.forall_mem_cons.mpr ⟨rfl, List.forall_mem_cons.mpr ⟨hpoint, ?_⟩⟩
    exact List.forall_mem_append.mpr ⟨hzeros _, hdigits⟩
  · split
    · next d d' rest hds =>
      rw [hds] at hdigits
      refine List.forall_mem_cons.mpr ⟨hdigits d (by simp), List.forall_mem_cons.mpr ⟨hpoint, ?_⟩⟩
      exact List.forall_mem_append.mpr ⟨fun c hc => hdigits c (List.mem_cons_of_mem _ hc),
        isNumeralChar_exponentText _⟩
    · exact List.forall_mem_append.mpr ⟨hdigits, isNumeralChar_exponentText _⟩

/-- A numeral starts with a digit. -/
theorem numeral_eq_cons (s : ℕ) (e : ℤ) :
    ∃ c cs, numeral s e = c :: cs ∧ c.isDigit = true := by
  have hne : Nat.toDigits 10 s ≠ [] := Nat.toDigits_ne_nil
  obtain ⟨d, ds, hds⟩ := List.exists_cons_of_ne_nil hne
  have hd : d.isDigit = true := isDigit_toDigits (n := s) d (by rw [hds]; simp)
  unfold numeral
  simp only [hds]
  split_ifs with hwhole hpoint hsmall
  · exact ⟨d, _, rfl, hd⟩
  · obtain ⟨n, hn⟩ : ∃ n, (e + ((d :: ds).length : ℤ)).toNat = n + 1 :=
      Nat.exists_eq_succ_of_ne_zero (by omega)
    rw [hn, List.take_succ_cons]
    exact ⟨d, _, rfl, hd⟩
  · exact ⟨'0', _, rfl, rfl⟩
  · split
    · next d' rest heq =>
      cases heq
      exact ⟨d, _, rfl, hd⟩
    · exact ⟨d, _, rfl, hd⟩

theorem not_whiteSpace_of_numeralChar {c : Char} (h : isNumeralChar c = true) :
    isWhiteSpace c = false := by
  unfold isNumeralChar at h
  rw [Bool.or_eq_true, decide_eq_true_eq] at h
  have hcode : 0x2b ≤ c.toNat ∧ c.toNat ≤ 0x65 := by
    rcases h with h | h
    · rw [Char.isDigit_iff_toNat, show '0'.toNat = 48 from rfl, show '9'.toNat = 57 from rfl] at h
      omega
    · fin_cases h <;> decide
  unfold isWhiteSpace
  simp only [List.mem_cons, List.not_mem_nil, or_false, Bool.or_eq_false_iff,
    decide_eq_false_iff_not, Bool.and_eq_false_iff]
  omega

theorem trim_eq {cs : List Char} (h : ∀ c ∈ cs, isWhiteSpace c = false) : trim cs = cs := by
  have hdrop : cs.dropWhile isWhiteSpace = cs := by
    rw [List.dropWhile_eq_self_iff]
    intro hl
    rw [h _ (List.getElem_mem hl)]
    simp
  rw [trim, hdrop, List.rdropWhile_eq_self_iff]
  intro hl
  rw [h _ (List.getLast_mem hl)]
  simp

theorem radixOf_of_numeralChar {c : Char} (h : isNumeralChar c = true) : radixOf c = none := by
  unfold radixOf
  split_ifs with h₁ h₂ h₃
  · rcases h₁ with rfl | rfl <;> exact absurd h (by decide)
  · rcases h₂ with rfl | rfl <;> exact absurd h (by decide)
  · rcases h₃ with rfl | rfl <;> exact absurd h (by decide)
  · rfl

theorem nonDecimalLiteral_of_numeralChars {cs : List Char}
    (h : ∀ c ∈ cs, isNumeralChar c = true) : nonDecimalLiteral cs = none := by
  unfold nonDecimalLiteral
  split
  · next c ds => rw [radixOf_of_numeralChar (h c (by simp)), Option.map_none]
  · rfl

theorem signed_of_isDigit {c : Char} (h : c.isDigit = true) (cs : List Char) :
    signed (c :: cs) = (false, c :: cs) := by
  unfold signed
  split
  · next heq =>
    cases heq
    exact absurd h (by decide)
  · next heq =>
    cases heq
    exact absurd h (by decide)
  · rfl

/-- Reading a signed numeral rounds the decimal it is written for. -/
theorem stringToNumber_numeral (negative : Bool) (s : ℕ) (e : ℤ) :
    stringToNumber ((if negative then ['-'] else []) ++ numeral s e) =
      .round negative ((s : ℚ) * 10 ^ e) := by
  obtain ⟨c, cs, hcs, hc⟩ := numeral_eq_cons s e
  have hchars : ∀ d ∈ (if negative then ['-'] else []) ++ numeral s e, isNumeralChar d = true := by
    refine List.forall_mem_append.mpr ⟨?_, isNumeralChar_numeral s e⟩
    intro d hd
    split at hd
    · rw [List.mem_singleton.mp hd]
      rfl
    · cases hd
  have htrim := trim_eq fun d hd => not_whiteSpace_of_numeralChar (hchars d hd)
  have hsigned : signed ((if negative then ['-'] else []) ++ numeral s e) =
      (negative, numeral s e) := by
    cases negative
    · rw [hcs]
      exact signed_of_isDigit hc cs
    · rfl
  have hinfinity : numeral s e ≠ "Infinity".toList := by
    intro h
    have hI := isNumeralChar_numeral s e 'I' (by rw [h]; decide)
    exact absurd hI (by decide)
  unfold stringToNumber
  simp only [htrim, nonDecimalLiteral_of_numeralChars hchars, hsigned, decimalLiteral_numeral]
  rw [if_neg (by simp [hcs]), if_neg hinfinity]

/-- A number without the sign of zero. -/
def JsNumber.unsignedZero : JsNumber → JsNumber
  | .finite negative x => .finite (if x.value = 0 then false else negative) x
  | n => n

/-- What is printed is read back, but for the sign of zero. -/
theorem stringToNumber_text (n : JsNumber) : stringToNumber n.text = n.unsignedZero := by
  cases n with
  | nan => decide
  | infinity negative => cases negative <;> decide
  | finite negative x =>
    unfold JsNumber.text JsNumber.unsignedZero
    by_cases hx : x.value = 0
    · have hread := stringToNumber_numeral false 0 0
      rw [Nat.cast_zero, zero_mul, ← hx] at hread
      simp only [if_pos hx]
      exact hread.trans (JsNumber.round_double false x.nonneg x.rounded)
    · simp only [if_neg hx]
      rw [stringToNumber_numeral]
      refine JsNumber.round_double negative ?_ (shortest_rounds x hx)
      exact mul_nonneg (Nat.cast_nonneg _) (zpow_nonneg (by norm_num) _)

/-- Numbers that print alike are the same, but for the sign of zero. -/
theorem JsNumber.text_inj {m n : JsNumber} (h : m.text = n.text) :
    m.unsignedZero = n.unsignedZero := by
  rw [← stringToNumber_text, ← stringToNumber_text, h]

end Numbers

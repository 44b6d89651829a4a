import BusTester.Text.Utf16

/-!
# UTF-8

`Encoding.UTF8` of .NET in both directions. Encoding replaces an unpaired surrogate by U+FFFD.
Decoding is total: a sequence of bytes that is not well formed contributes one U+FFFD for each
maximal part that could have started a character.
-/

namespace Utf8

/-- The replacement character. -/
def replacement : ℕ := 0xFFFD

def isHighSurrogate (c : UInt16) : Bool := 0xD800 ≤ c && c ≤ 0xDBFF

def isLowSurrogate (c : UInt16) : Bool := 0xDC00 ≤ c && c ≤ 0xDFFF

/-! ## Scalar values of a string -/

/-- The scalar values of a string, an unpaired surrogate being replaced. -/
def scalars : Utf16 → List ℕ
  | [] => []
  | [c] => [if isHighSurrogate c || isLowSurrogate c then replacement else c.toNat]
  | c :: d :: rest =>
    if isHighSurrogate c && isLowSurrogate d then
      (0x10000 + (c.toNat - 0xD800) * 0x400 + (d.toNat - 0xDC00)) :: scalars rest
    else if isHighSurrogate c || isLowSurrogate c then replacement :: scalars (d :: rest)
    else c.toNat :: scalars (d :: rest)

/-- The code units of a scalar value. -/
def units (v : ℕ) : Utf16 :=
  if v < 0x10000 then [UInt16.ofNat v]
  else
    [UInt16.ofNat (0xD800 + (v - 0x10000) / 0x400), UInt16.ofNat (0xDC00 + (v - 0x10000) % 0x400)]

/-! ## Bytes of a scalar value -/

/-- The bytes of a scalar value. -/
def encodeScalar (v : ℕ) : List UInt8 :=
  if v < 0x80 then [UInt8.ofNat v]
  else if v < 0x800 then [UInt8.ofNat (0xC0 + v / 0x40), UInt8.ofNat (0x80 + v % 0x40)]
  else if v < 0x10000 then
    [UInt8.ofNat (0xE0 + v / 0x1000), UInt8.ofNat (0x80 + v / 0x40 % 0x40),
      UInt8.ofNat (0x80 + v % 0x40)]
  else
    [UInt8.ofNat (0xF0 + v / 0x40000), UInt8.ofNat (0x80 + v / 0x1000 % 0x40),
      UInt8.ofNat (0x80 + v / 0x40 % 0x40), UInt8.ofNat (0x80 + v % 0x40)]

/-- `Encoding.UTF8.GetBytes`. -/
def getBytes (s : Utf16) : List UInt8 := (scalars s).flatMap encodeScalar

/-! ## Decoding -/

/-- The bytes that may follow the lead byte `b`, as bounds; `none` when `b` leads nothing longer. -/
def secondByte (b : ℕ) : Option (ℕ × ℕ) :=
  if 0xC2 ≤ b ∧ b ≤ 0xDF then some (0x80, 0xBF)
  else if b = 0xE0 then some (0xA0, 0xBF)
  else if b = 0xED then some (0x80, 0x9F)
  else if 0xE1 ≤ b ∧ b ≤ 0xEF then some (0x80, 0xBF)
  else if b = 0xF0 then some (0x90, 0xBF)
  else if 0xF1 ≤ b ∧ b ≤ 0xF3 then some (0x80, 0xBF)
  else if b = 0xF4 then some (0x80, 0x8F)
  else none

/-- Read `count` more continuation bytes, the first one within `bounds`, on top of the value `v`;
where one is missing the value is the replacement character and the byte is not consumed. -/
def continuation (v : ℕ) : ℕ → ℕ × ℕ → List UInt8 → ℕ × List UInt8
  | 0, _, rest => (v, rest)
  | _ + 1, _, [] => (replacement, [])
  | count + 1, (lo, hi), b :: rest =>
    if lo ≤ b.toNat ∧ b.toNat ≤ hi then
      continuation (v * 0x40 + (b.toNat - 0x80)) count (0x80, 0xBF) rest
    else (replacement, b :: rest)

/-- The first character of `b :: rest`, and the bytes after it. -/
def decodeScalar (b : UInt8) (rest : List UInt8) : ℕ × List UInt8 :=
  if b.toNat < 0x80 then (b.toNat, rest)
  else
    match secondByte b.toNat with
    | none => (replacement, rest)
    | some bounds =>
      if b.toNat < 0xE0 then continuation (b.toNat - 0xC0) 1 bounds rest
      else if b.toNat < 0xF0 then continuation (b.toNat - 0xE0) 2 bounds rest
      else continuation (b.toNat - 0xF0) 3 bounds rest

/-- Decode at most `fuel` characters. -/
def decode : ℕ → List UInt8 → List ℕ
  | 0, _ => []
  | _, [] => []
  | fuel + 1, b :: rest =>
    let (v, rest) := decodeScalar b rest
    v :: decode fuel rest

/-- `Encoding.UTF8.GetString`. -/
def getString (bytes : List UInt8) : Utf16 := (decode bytes.length bytes).flatMap units

/-! ## Decoding undoes encoding -/

/-- The values of Unicode scalars: surrogates are none. -/
def IsScalar (v : ℕ) : Prop := v < 0xD800 ∨ (0xDFFF < v ∧ v < 0x110000)

private theorem toNat_ofNat {x : ℕ} (hx : x < 256) : (UInt8.ofNat x).toNat = x :=
  UInt8.toNat_ofNat_of_lt' hx

private theorem continuation_ofNat {v x count lo hi : ℕ} {rest : List UInt8} (hx : x < 256)
    (hlo : lo ≤ x) (hhi : x ≤ hi) :
    continuation v (count + 1) (lo, hi) (UInt8.ofNat x :: rest)
      = continuation (v * 0x40 + (x - 0x80)) count (0x80, 0xBF) rest := by
  have hnat : (UInt8.ofNat x).toNat = x := toNat_ofNat hx
  rw [continuation, hnat, if_pos ⟨hlo, hhi⟩]

/-- **Decoding undoes encoding**, one character at a time. -/
theorem decodeScalar_encodeScalar {v : ℕ} (hv : IsScalar v) :
    ∃ b bytes, encodeScalar v = b :: bytes ∧
      ∀ rest, decodeScalar b (bytes ++ rest) = (v, rest) := by
  unfold IsScalar at hv
  unfold encodeScalar
  split
  · rename_i h1
    refine ⟨_, _, rfl, fun rest ↦ ?_⟩
    have hb : (UInt8.ofNat v).toNat = v := toNat_ofNat (by omega)
    rw [decodeScalar, hb, if_pos h1, List.nil_append]
  split
  · rename_i h1 h2
    refine ⟨_, _, rfl, fun rest ↦ ?_⟩
    have hb : (UInt8.ofNat (0xC0 + v / 0x40)).toNat = 0xC0 + v / 0x40 :=
      toNat_ofNat (by omega)
    have hsecond : secondByte (0xC0 + v / 0x40) = some (0x80, 0xBF) := by
      rw [secondByte, if_pos (by omega)]
    rw [decodeScalar, hb, if_neg (by omega), hsecond]
    simp only []
    rw [if_pos (by omega), List.singleton_append,
      continuation_ofNat (by omega) (by omega) (by omega), continuation]
    rw [Prod.mk.injEq]
    exact ⟨by omega, rfl⟩
  split
  · rename_i h1 h2 h3
    refine ⟨_, _, rfl, fun rest ↦ ?_⟩
    have hb : (UInt8.ofNat (0xE0 + v / 0x1000)).toNat = 0xE0 + v / 0x1000 :=
      toNat_ofNat (by omega)
    obtain ⟨lo, hi, hsecond, hlo, hhi⟩ : ∃ lo hi, secondByte (0xE0 + v / 0x1000) = some (lo, hi) ∧
        lo ≤ 0x80 + v / 0x40 % 0x40 ∧ 0x80 + v / 0x40 % 0x40 ≤ hi := by
      unfold secondByte
      split_ifs <;> first | omega | exact ⟨_, _, rfl, by omega, by omega⟩
    rw [decodeScalar, hb, if_neg (by omega), hsecond]
    simp only []
    rw [if_neg (by omega), if_pos (by omega), List.cons_append, List.singleton_append,
      continuation_ofNat (by omega) hlo hhi, continuation_ofNat (by omega) (by omega) (by omega),
      continuation]
    rw [Prod.mk.injEq]
    exact ⟨by omega, rfl⟩
  · rename_i h1 h2 h3
    refine ⟨_, _, rfl, fun rest ↦ ?_⟩
    have hb : (UInt8.ofNat (0xF0 + v / 0x40000)).toNat = 0xF0 + v / 0x40000 :=
      toNat_ofNat (by omega)
    obtain ⟨lo, hi, hsecond, hlo, hhi⟩ : ∃ lo hi, secondByte (0xF0 + v / 0x40000) = some (lo, hi) ∧
        lo ≤ 0x80 + v / 0x1000 % 0x40 ∧ 0x80 + v / 0x1000 % 0x40 ≤ hi := by
      unfold secondByte
      split_ifs <;> first | omega | exact ⟨_, _, rfl, by omega, by omega⟩
    rw [decodeScalar, hb, if_neg (by omega), hsecond]
    simp only []
    rw [if_neg (by omega), if_neg (by omega), List.cons_append, List.cons_append,
      List.singleton_append, continuation_ofNat (by omega) hlo hhi,
      continuation_ofNat (by omega) (by omega) (by omega),
      continuation_ofNat (by omega) (by omega) (by omega), continuation]
    rw [Prod.mk.injEq]
    exact ⟨by omega, rfl⟩

theorem decode_encode {values : List ℕ} (h : ∀ v ∈ values, IsScalar v) {fuel : ℕ}
    (hfuel : (values.flatMap encodeScalar).length ≤ fuel) :
    decode fuel (values.flatMap encodeScalar) = values := by
  induction values generalizing fuel with
  | nil => cases fuel <;> rfl
  | cons v values ih =>
    obtain ⟨b, bytes, hencode, hdecode⟩ := decodeScalar_encodeScalar (h v List.mem_cons_self)
    rw [List.flatMap_cons, hencode] at hfuel ⊢
    rw [List.cons_append, List.length_cons, List.length_append] at hfuel
    obtain ⟨fuel, rfl⟩ : ∃ n, fuel = n + 1 := ⟨fuel - 1, by omega⟩
    rw [List.cons_append, decode, hdecode]
    simp only []
    rw [ih (fun w hw ↦ h w (List.mem_cons_of_mem v hw)) (by omega)]

/-! ## A string and its bytes -/

theorem isHighSurrogate_iff {c : UInt16} :
    isHighSurrogate c = true ↔ 0xD800 ≤ c.toNat ∧ c.toNat ≤ 0xDBFF := by
  simp [isHighSurrogate, UInt16.le_iff_toNat_le]

theorem isLowSurrogate_iff {c : UInt16} :
    isLowSurrogate c = true ↔ 0xDC00 ≤ c.toNat ∧ c.toNat ≤ 0xDFFF := by
  simp [isLowSurrogate, UInt16.le_iff_toNat_le]

theorem isScalar_replacement : IsScalar replacement := Or.inr (by decide)

theorem isScalar_toNat {c : UInt16} (h : ¬(isHighSurrogate c || isLowSurrogate c) = true) :
    IsScalar c.toNat := by
  rw [Bool.or_eq_true, isHighSurrogate_iff, isLowSurrogate_iff] at h
  have hlt : c.toNat < 65536 := c.toNat_lt
  unfold IsScalar
  omega

theorem isScalar_of_mem_scalars (s : Utf16) : ∀ v ∈ scalars s, IsScalar v := by
  induction s using scalars.induct with
  | case1 => exact nofun
  | case2 c =>
    rw [scalars, List.forall_mem_singleton]
    split
    · exact isScalar_replacement
    · rename_i h
      exact isScalar_toNat h
  | case3 c d rest hpair ih =>
    rw [scalars, if_pos hpair, List.forall_mem_cons]
    rw [Bool.and_eq_true, isHighSurrogate_iff, isLowSurrogate_iff] at hpair
    refine ⟨Or.inr ?_, ih⟩
    omega
  | case4 c d rest hpair hlone ih =>
    rw [scalars, if_neg hpair, if_pos hlone, List.forall_mem_cons]
    exact ⟨isScalar_replacement, ih⟩
  | case5 c d rest hpair hplain ih =>
    rw [scalars, if_neg hpair, if_neg hplain, List.forall_mem_cons]
    exact ⟨isScalar_toNat hplain, ih⟩

/-- **The bytes of a string denote its scalar values.** -/
theorem getString_getBytes (s : Utf16) : getString (getBytes s) = (scalars s).flatMap units := by
  rw [getString, getBytes, decode_encode (isScalar_of_mem_scalars s) le_rfl]

/-- A scalar value above all white space is not rendered as white space. -/
private theorem not_all_isWhiteSpace_units {v : ℕ} (hv : IsScalar v) (h : 0x3000 < v) :
    (units v).all Utf16.isWhiteSpace = false := by
  unfold units
  split
  · rename_i hlt
    rw [List.all_cons, Utf16.isWhiteSpace_eq_false, Bool.false_and]
    rwa [UInt16.toNat_ofNat_of_lt' hlt]
  · unfold IsScalar at hv
    have hlt : 0xD800 + (v - 0x10000) / 0x400 < 65536 := by omega
    rw [List.all_cons, Utf16.isWhiteSpace_eq_false, Bool.false_and]
    rw [UInt16.toNat_ofNat_of_lt' hlt]
    omega

private theorem units_toNat (c : UInt16) : units c.toNat = [c] := by
  rw [units, if_pos c.toNat_lt, UInt16.ofNat_toNat]

/-- `String.prototype.isWellFormed`: every surrogate is paired. -/
def isWellFormed : Utf16 → Bool
  | [] => true
  | [c] => !(isHighSurrogate c || isLowSurrogate c)
  | c :: d :: rest =>
    if isHighSurrogate c && isLowSurrogate d then isWellFormed rest
    else !(isHighSurrogate c || isLowSurrogate c) && isWellFormed (d :: rest)

/-- A pair of surrogates is what its scalar value is rendered as. -/
private theorem units_of_pair {c d : UInt16} (hc : isHighSurrogate c = true)
    (hd : isLowSurrogate d = true) :
    units (0x10000 + (c.toNat - 0xD800) * 0x400 + (d.toNat - 0xDC00)) = [c, d] := by
  rw [isHighSurrogate_iff] at hc
  rw [isLowSurrogate_iff] at hd
  have hhigh : 0xD800
      + (0x10000 + (c.toNat - 0xD800) * 0x400 + (d.toNat - 0xDC00) - 0x10000) / 0x400
      = c.toNat := by omega
  have hlow : 0xDC00 + (0x10000 + (c.toNat - 0xD800) * 0x400 + (d.toNat - 0xDC00) - 0x10000) % 0x400
      = d.toNat := by omega
  rw [units, if_neg (by omega), hhigh, hlow, UInt16.ofNat_toNat, UInt16.ofNat_toNat]

/-- **A string whose surrogates are paired is its scalar values, rendered.** -/
theorem units_scalars {s : Utf16} (h : isWellFormed s = true) : (scalars s).flatMap units = s := by
  induction s using scalars.induct with
  | case1 => rfl
  | case2 c =>
    rw [isWellFormed, Bool.not_eq_true'] at h
    rw [scalars, h, if_neg Bool.false_ne_true, List.flatMap_cons, units_toNat]
    rfl
  | case3 c d rest hpair ih =>
    rw [isWellFormed, if_pos hpair] at h
    rw [Bool.and_eq_true] at hpair
    rw [scalars, if_pos (by rw [hpair.1, hpair.2]; rfl), List.flatMap_cons,
      units_of_pair hpair.1 hpair.2, ih h]
    rfl
  | case4 c d rest hpair hlone ih =>
    rw [isWellFormed, if_neg hpair, hlone] at h
    cases h
  | case5 c d rest hpair hplain ih =>
    rw [isWellFormed, if_neg hpair, Bool.and_eq_true] at h
    rw [scalars, if_neg hpair, if_neg hplain, List.flatMap_cons, units_toNat, ih h.2]
    rfl

/-- **Such a string survives the way through its bytes.** -/
theorem getString_getBytes_of_isWellFormed {s : Utf16} (h : isWellFormed s = true) :
    getString (getBytes s) = s := by
  rw [getString_getBytes, units_scalars h]

private theorem not_blank_of_surrogate {v : ℕ} {rest : List ℕ} (hv : IsScalar v) (h : 0x3000 < v) :
    Utf16.isNullOrWhiteSpace (some ((v :: rest).flatMap units)) = false := by
  rw [Utf16.isNullOrWhiteSpace, List.flatMap_cons, List.all_append, not_all_isWhiteSpace_units hv h,
    Bool.false_and]

/-- **A string that is not blank is not blank after the way through its bytes**, whatever its
unpaired surrogates become. -/
theorem isNullOrWhiteSpace_getString_getBytes (s : Utf16) :
    Utf16.isNullOrWhiteSpace (some (getString (getBytes s)))
      = Utf16.isNullOrWhiteSpace (some s) := by
  have hreplacement : (0x3000 : ℕ) < replacement := by decide
  have hsurrogate : ∀ {c : UInt16} (rest : Utf16),
      (isHighSurrogate c || isLowSurrogate c) = true →
        Utf16.isNullOrWhiteSpace (some (c :: rest)) = false := by
    intro c rest hc
    rw [Bool.or_eq_true, isHighSurrogate_iff, isLowSurrogate_iff] at hc
    rw [Utf16.isNullOrWhiteSpace, List.all_cons, Utf16.isWhiteSpace_eq_false (by omega),
      Bool.false_and]
  rw [getString_getBytes]
  induction s using scalars.induct with
  | case1 => rfl
  | case2 c =>
    rw [scalars]
    split
    · rename_i hlone
      rw [not_blank_of_surrogate isScalar_replacement hreplacement, hsurrogate [] hlone]
    · rw [List.flatMap_cons, units_toNat]
      rfl
  | case3 c d rest hpair ih =>
    have hmem : IsScalar _ := isScalar_of_mem_scalars (c :: d :: rest) _
      (by rw [scalars, if_pos hpair]; exact List.mem_cons_self)
    rw [scalars, if_pos hpair, not_blank_of_surrogate hmem (by omega)]
    rw [Bool.and_eq_true] at hpair
    rw [hsurrogate _ (by rw [hpair.1, Bool.true_or])]
  | case4 c d rest hpair hlone ih =>
    rw [scalars, if_neg hpair, if_pos hlone,
      not_blank_of_surrogate isScalar_replacement hreplacement, hsurrogate _ hlone]
  | case5 c d rest hpair hplain ih =>
    rw [scalars, if_neg hpair, if_neg hplain, List.flatMap_cons, units_toNat, List.singleton_append,
      Utf16.isNullOrWhiteSpace_cons, ih, ← Utf16.isNullOrWhiteSpace_cons]

/-! ## What is decoded as white space -/

/-- A character that is read to its end has its next byte within the bounds. -/
private theorem continuation_cases {v w count lo hi : ℕ} {bytes rest : List UInt8}
    (h : continuation v (count + 1) (lo, hi) bytes = (w, rest)) (hw : w ≠ replacement) :
    ∃ b bytes', bytes = b :: bytes' ∧ (lo ≤ b.toNat ∧ b.toNat ≤ hi) ∧
      continuation (v * 0x40 + (b.toNat - 0x80)) count (0x80, 0xBF) bytes' = (w, rest) := by
  cases bytes with
  | nil =>
    cases h
    exact absurd rfl hw
  | cons b bytes =>
    rw [continuation] at h
    split at h
    · rename_i hbounds
      exact ⟨b, bytes, rfl, hbounds, h⟩
    · cases h
      exact absurd rfl hw

/-- The lead byte of a longer character leaves bounds that no shorter encoding meets. -/
private theorem secondByte_bounds {b lo hi : ℕ} (h : secondByte b = some (lo, hi)) :
    0xC2 ≤ b ∧ b ≤ 0xF4 ∧ 0x80 ≤ lo ∧ hi ≤ 0xBF ∧ (b = 0xE0 → 0xA0 ≤ lo) ∧
      (b = 0xF0 → 0x90 ≤ lo) := by
  unfold secondByte at h
  split_ifs at h <;> cases h <;> omega

/-- **Encoding undoes decoding**, unless a part of the bytes was replaced. -/
theorem encodeScalar_of_decodeScalar {b : UInt8} {v : ℕ} {bytes rest : List UInt8}
    (h : decodeScalar b bytes = (v, rest)) (hv : v ≠ replacement) :
    b :: bytes = encodeScalar v ++ rest := by
  have hbyte : ∀ {c : UInt8} {x : ℕ}, x = c.toNat → UInt8.ofNat x = c := by
    rintro c x rfl
    exact UInt8.ofNat_toNat
  have hb : b.toNat < 256 := b.toNat_lt
  unfold decodeScalar at h
  split at h
  · rename_i h1
    cases h
    rw [encodeScalar, if_pos h1, hbyte rfl]
    rfl
  split at h
  · cases h
    exact absurd rfl hv
  rename_i h1 bounds hsecond
  obtain ⟨lo, hi⟩ := bounds
  obtain ⟨hlead, hmax, hlo, hhi, hE0, hF0⟩ := secondByte_bounds hsecond
  split at h
  · rename_i h2
    obtain ⟨c, bytes, rfl, hc, h⟩ := continuation_cases h hv
    rw [continuation, Prod.mk.injEq] at h
    obtain ⟨rfl, rfl⟩ := h
    rw [encodeScalar, if_neg (by omega), if_pos (by omega), hbyte (c := b) (by omega),
      hbyte (c := c) (by omega)]
    rfl
  split at h
  · rename_i h2 h3
    obtain ⟨c, bytes, rfl, hc, h⟩ := continuation_cases h hv
    obtain ⟨d, bytes, rfl, hd, h⟩ := continuation_cases h hv
    rw [continuation, Prod.mk.injEq] at h
    obtain ⟨rfl, rfl⟩ := h
    rw [encodeScalar, if_neg (by omega), if_neg (by omega), if_pos (by omega),
      hbyte (c := b) (by omega), hbyte (c := c) (by omega), hbyte (c := d) (by omega)]
    rfl
  · rename_i h2 h3
    obtain ⟨c, bytes, rfl, hc, h⟩ := continuation_cases h hv
    obtain ⟨d, bytes, rfl, hd, h⟩ := continuation_cases h hv
    obtain ⟨e, bytes, rfl, he, h⟩ := continuation_cases h hv
    rw [continuation, Prod.mk.injEq] at h
    obtain ⟨rfl, rfl⟩ := h
    rw [encodeScalar, if_neg (by omega), if_neg (by omega), if_neg (by omega),
      hbyte (c := b) (by omega), hbyte (c := c) (by omega), hbyte (c := d) (by omega),
      hbyte (c := e) (by omega)]
    rfl

theorem encode_decode {fuel : ℕ} {bytes : List UInt8} (hfuel : bytes.length ≤ fuel)
    (h : ∀ v ∈ decode fuel bytes, v ≠ replacement) :
    bytes = (decode fuel bytes).flatMap encodeScalar := by
  induction fuel generalizing bytes with
  | zero =>
    obtain rfl : bytes = [] := List.length_eq_zero_iff.mp (Nat.le_zero.mp hfuel)
    rfl
  | succ fuel ih =>
    cases bytes with
    | nil => rfl
    | cons b bytes =>
      obtain ⟨v, rest, hdecode⟩ : ∃ v rest, decodeScalar b bytes = (v, rest) := ⟨_, _, rfl⟩
      simp only [decode, hdecode, List.forall_mem_cons] at h ⊢
      have hbytes := encodeScalar_of_decodeScalar hdecode h.1
      have hlen : rest.length ≤ fuel := by
        have hpos : 0 < (encodeScalar v).length := by
          unfold encodeScalar
          split_ifs <;> exact Nat.succ_pos _
        have hlength := congrArg List.length hbytes
        rw [List.length_cons, List.length_append] at hlength
        rw [List.length_cons] at hfuel
        omega
      rw [hbytes, List.flatMap_cons, ← ih hlen h.2]

/-- A text without surrogates is written unit by unit. -/
theorem scalars_of_plain {s : Utf16}
    (h : ∀ c ∈ s, ¬(isHighSurrogate c || isLowSurrogate c) = true) :
    scalars s = s.map UInt16.toNat := by
  induction s using scalars.induct with
  | case1 => rfl
  | case2 c =>
    rw [scalars, if_neg (h c List.mem_cons_self)]
    rfl
  | case3 c d rest hpair ih =>
    rw [Bool.and_eq_true] at hpair
    exact absurd (by rw [hpair.1, Bool.true_or]) (h c List.mem_cons_self)
  | case4 c d rest hpair hlone ih => exact absurd hlone (h c List.mem_cons_self)
  | case5 c d rest hpair hplain ih =>
    rw [scalars, if_neg hpair, if_neg hplain, ih fun e he ↦ h e (List.mem_cons_of_mem _ he)]
    rfl

/-- A scalar value that is rendered as white space is a small one. -/
private theorem le_of_all_isWhiteSpace_units {v : ℕ}
    (h : (units v).all Utf16.isWhiteSpace = true) : v ≤ 0x3000 := by
  have hsmall : ∀ {x : ℕ}, x < 65536 → Utf16.isWhiteSpace (UInt16.ofNat x) = true →
      x ≤ 0x3000 := by
    intro x hx hspace
    by_contra hlarge
    rw [Utf16.isWhiteSpace_eq_false (by rw [UInt16.toNat_ofNat_of_lt' hx]; omega)] at hspace
    cases hspace
  unfold units at h
  split at h
  · rename_i hv
    rw [List.all_cons, Bool.and_eq_true] at h
    exact hsmall hv h.1
  · -- The second unit of a pair is a surrogate.
    rw [List.all_cons, List.all_cons, Bool.and_eq_true, Bool.and_eq_true] at h
    have hlow := hsmall (by omega) h.2.1
    omega

/-- **Blank payloads.** What is decoded as white space was encoded from white space. -/
theorem isNullOrWhiteSpace_getString_iff {bytes : List UInt8} :
    Utf16.isNullOrWhiteSpace (some (getString bytes)) = true ↔
      ∃ text : Utf16, (∀ c ∈ text, Utf16.isWhiteSpace c = true) ∧ bytes = getBytes text := by
  constructor
  · intro hblank
    have hwhite : ∀ c ∈ getString bytes, Utf16.isWhiteSpace c = true := List.all_eq_true.mp hblank
    refine ⟨getString bytes, hwhite, ?_⟩
    have hsmall : ∀ v ∈ decode bytes.length bytes, v ≤ 0x3000 := fun v hv ↦
      le_of_all_isWhiteSpace_units (List.all_eq_true.mpr fun c hc ↦
        hwhite c (List.mem_flatMap.mpr ⟨v, hv, hc⟩))
    have hunits : getString bytes = (decode bytes.length bytes).map UInt16.ofNat := by
      rw [getString, List.map_eq_flatMap]
      refine List.flatMap_congr fun v hv ↦ ?_
      have hle := hsmall v hv
      rw [units, if_pos (by omega)]
    have hscalars : scalars (getString bytes) = decode bytes.length bytes := by
      rw [scalars_of_plain fun c hc hsurrogate ↦ ?_, hunits, List.map_map]
      · refine (List.map_congr_left fun v hv ↦ ?_).trans (List.map_id _)
        have hle := hsmall v hv
        exact UInt16.toNat_ofNat_of_lt' (show v < 65536 by omega)
      · rw [Bool.or_eq_true, isHighSurrogate_iff, isLowSurrogate_iff] at hsurrogate
        have hspace := hwhite c hc
        rw [Utf16.isWhiteSpace_eq_false (by omega)] at hspace
        cases hspace
    rw [getBytes, hscalars]
    refine encode_decode le_rfl fun v hv hreplaced ↦ ?_
    have hle := hsmall v hv
    have hlarge : (0x3000 : ℕ) < replacement := by decide
    omega
  · rintro ⟨text, hwhite, rfl⟩
    rw [isNullOrWhiteSpace_getString_getBytes]
    exact List.all_eq_true.mpr hwhite

end Utf8

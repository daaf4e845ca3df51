/-
  JobScheduler.Routes.Pagination
  ──────────────────────────────
  `middleware/pagination.ts` from the query strings on: `parsePagination`,
  `paginationOffset` and `buildPaginatedResponse`.

  The numbers are doubles here.  The page may be an infinity, the limit never is;
  where both are integers they are the `Pagination` that the list endpoints read
  (`parsePagination_parse`), and for every list that fits into the doubles the
  offset is the exact one (`value_offset`).
-/
import Mathlib.Data.Nat.Cast.Order.Field
import JobScheduler.Library.Double
import JobScheduler.Routes.Reads

namespace JobScheduler

open Relational Binary64

/-! ## §1. `parseInt`. -/

/-- `StrWhiteSpaceChar`. -/
def isStrWhiteSpace (c : Char) : Bool :=
  [0x09, 0x0A, 0x0B, 0x0C, 0x0D, 0x20, 0xA0, 0x1680, 0x2028, 0x2029, 0x202F, 0x205F, 0x3000,
    0xFEFF].contains c.toNat || (0x2000 ≤ c.toNat && c.toNat ≤ 0x200A)

/-- The number that decimal digits denote. -/
def decimalValue (digits : List Char) : Nat :=
  digits.foldl (fun n c => 10 * n + (c.toNat - 48)) 0

/-- The sign and the text after it. -/
def splitSign : List Char → Int × List Char
  | '-' :: rest => (-1, rest)
  | '+' :: rest => (1, rest)
  | text => (1, text)

/-- `parseInt(text, 10)`: the longest run of digits after white space and a sign;
what follows it is not looked at. -/
def parseInt (text : String) : Double :=
  let (sign, rest) := splitSign (text.toList.dropWhile isStrWhiteSpace)
  let digits := rest.takeWhile Char.isDigit
  if digits.isEmpty then .nan else .ofInt (sign * decimalValue digits)

/-- `parseInt` of a key of `req.query`; a missing key reads as the text `undefined`. -/
def parseIntKey (value : Option String) : Double := parseInt (value.getD "undefined")

/-! ## §2. The three functions. -/

/-- `PaginationParams`, as JavaScript numbers. -/
structure PaginationParams where
  page : Double
  limit : Double

/-- `parsePagination(req)`. -/
def parsePagination (page limit : Option String) : PaginationParams where
  page := (Double.ofInt 1).max ((parseIntKey page).or (.ofInt 1))
  limit := (Double.ofInt 100).min ((Double.ofInt 1).max ((parseIntKey limit).or (.ofInt 20)))

/-- `paginationOffset(params)`. -/
def paginationOffset (params : PaginationParams) : Double :=
  (params.page.sub (.ofInt 1)).mul params.limit

/-- `Math.ceil(total / params.limit)`, of the exact quotient. -/
def totalPages (total limit : Nat) : Nat := ⌈(total : ℚ) / limit⌉₊

/-- `buildPaginatedResponse(data, total, params)`. -/
def buildPaginatedResponse {α : Type} (data : List α) (total : Nat) (params : Pagination) :
    Page α where
  data := data
  page := params.page
  limit := params.limit
  total := total
  totalPages := totalPages total params.limit

/-! ## §3. What `parsePagination` accepts. -/

theorem value_small {k : Int} (h : k.natAbs < 2 ^ 53) : (Double.ofInt k).value? = some k :=
  Double.value_ofInt_iff.mpr (Double.isDouble_of_lt h)

/-- A key that is not an infinity counts as an integer or as absent. -/
theorem value_orDefault {d : Double} (h : ∀ s, d ≠ .infinity s) {k : Int} (hk : k.natAbs < 2 ^ 53) :
    (d.or (.ofInt k)).value? = some (orDefault d.value? k) :=
  Double.value_or h (value_small hk)

/-- The page of a query whose text is no infinite number. -/
theorem parsePagination_page {page : Option String} (limit : Option String)
    (h : ∀ s, parseIntKey page ≠ .infinity s) :
    (parsePagination page limit).page.value? = some (max 1 (orDefault (parseIntKey page).value? 1)) :=
  Double.value_max (value_small (by decide)) (value_orDefault h (by decide))

/-- The limit of a query whose text is no infinite number. -/
theorem parsePagination_limit (page : Option String) {limit : Option String}
    (h : ∀ s, parseIntKey limit ≠ .infinity s) :
    (parsePagination page limit).limit.value?
      = some (min 100 (max 1 (orDefault (parseIntKey limit).value? 20))) :=
  Double.value_min (value_small (by decide))
    (Double.value_max (value_small (by decide)) (value_orDefault h (by decide)))

/-- The list endpoints read the same page and limit. -/
theorem parsePagination_parse {page limit : Option String} (hpage : ∀ s, parseIntKey page ≠ .infinity s)
    (hlimit : ∀ s, parseIntKey limit ≠ .infinity s) :
    (parsePagination page limit).page.value?
        = some ((⟨(parseIntKey page).value?, (parseIntKey limit).value?⟩ : PageQuery).parse.page : Int)
      ∧ (parsePagination page limit).limit.value?
        = some ((⟨(parseIntKey page).value?, (parseIntKey limit).value?⟩ : PageQuery).parse.limit
          : Int) := by
  rw [parsePagination_page limit hpage, parsePagination_limit page hlimit]
  unfold PageQuery.parse
  refine ⟨congrArg some ?_, congrArg some ?_⟩
  · exact (Int.toNat_of_nonneg (by omega)).symm
  · exact (Int.toNat_of_nonneg (by omega)).symm

/-- `d ≥ 1`. -/
def Positive (d : Double) : Prop := d = .infinity false ∨ ∃ n : Nat, d.value? = some (n : Int) ∧ 1 ≤ n

/-- `Math.max(1, d || k)`, for every number `d`. -/
theorem positive_max_one (d : Double) {k : Int} (hk : k.natAbs < 2 ^ 53) :
    Positive ((Double.ofInt 1).max (d.or (.ofInt k))) := by
  have hone : (Double.ofInt 1).value? = some 1 := value_small (by decide)
  by_cases hfinite : ∀ s, d ≠ .infinity s
  · refine Or.inr ⟨(max 1 (orDefault d.value? k)).toNat, ?_, by omega⟩
    rw [Double.value_max hone (value_orDefault hfinite hk), Int.toNat_of_nonneg (by omega)]
  · push Not at hfinite
    obtain ⟨s, rfl⟩ := hfinite
    have hmax : (Double.ofInt 1).max (.infinity s) = if s then .ofInt 1 else .infinity false :=
      Double.max_infinity hone s
    show Positive ((Double.ofInt 1).max (.infinity s))
    rw [hmax]
    cases s
    · exact Or.inl rfl
    · exact Or.inr ⟨1, hone, le_rfl⟩

/-- No page number is below 1. -/
theorem page_positive (page limit : Option String) : Positive (parsePagination page limit).page :=
  positive_max_one _ (by decide)

/-- An infinite limit is clamped like any other. -/
theorem limit_bounds (page limit : Option String) :
    ∃ n : Nat, (parsePagination page limit).limit.value? = some (n : Int) ∧ 1 ≤ n ∧ n ≤ 100 := by
  have hhundred : (Double.ofInt 100).value? = some ((100 : Nat) : Int) := value_small (by decide)
  unfold parsePagination
  rcases positive_max_one (parseIntKey limit) (k := 20) (by decide) with hinf | ⟨n, hn, hpos⟩
  · refine ⟨100, ?_, by omega, le_rfl⟩
    rw [hinf, Double.min_infinity hhundred]
    exact hhundred
  · refine ⟨min 100 n, ?_, by omega, by omega⟩
    rw [Double.value_min hhundred hn, Nat.cast_min]

theorem page_pos_of_value {page limit : Option String} {p : Nat}
    (h : (parsePagination page limit).page.value? = some (p : Int)) : 1 ≤ p := by
  rcases page_positive page limit with hinf | ⟨n, hn, hpos⟩
  · rw [hinf] at h
    cases h
  · exact Double.natCast_of_value hn h ▸ hpos

/-! ## §4. Pages. -/

/-- `k` pages are enough exactly when they have room for all rows. -/
theorem totalPages_le_iff {total limit k : Nat} (h : 1 ≤ limit) :
    totalPages total limit ≤ k ↔ total ≤ k * limit := by
  have hpos : (0 : ℚ) < limit := by exact_mod_cast h
  unfold totalPages
  rw [Nat.ceil_le, div_le_iff₀ hpos]
  exact_mod_cast Iff.rfl

/-- The list endpoints answer with this envelope. -/
theorem paginated_eq {α : Type} {params : Pagination} (h : 1 ≤ params.limit) (rows : List α) :
    params.paginated rows
      = buildPaginatedResponse (slice rows params.limit params.offset) rows.length params := by
  have hpages : (rows.length + params.limit - 1) / params.limit
      = totalPages rows.length params.limit := by
    apply le_antisymm
    · have hle := (totalPages_le_iff h).mp (le_refl (totalPages rows.length params.limit))
      rw [← Nat.lt_succ_iff, Nat.div_lt_iff_lt_mul h, Nat.succ_mul]
      omega
    · rw [totalPages_le_iff h]
      have hdiv := Nat.lt_div_mul_add (a := rows.length + params.limit - 1) h
      omega
  unfold Pagination.paginated buildPaginatedResponse
  rw [hpages]
  rfl

/-- From 2 ^ 53 + 1 on `page - 1` is no double, and neither is a multiple of it. -/
theorem value_offset_iff {params : PaginationParams} {page limit : Nat}
    (hpage : params.page.value? = some (page : Int)) (hlimit : params.limit.value? = some (limit : Int))
    (hpos : 1 ≤ page) (hlimit_pos : 1 ≤ limit) :
    (paginationOffset params).value? = some ((Pagination.offset ⟨page, limit⟩ : Nat) : Int)
      ↔ page ≤ 2 ^ 53 ∧ IsDouble (Pagination.offset ⟨page, limit⟩ : Nat) := by
  have hone : (Double.ofInt 1).value? = some 1 := value_small (by decide)
  have hoffset : ((Pagination.offset ⟨page, limit⟩ : Nat) : Int) = ((page : Int) - 1) * limit := by
    rw [Pagination.offset, Nat.cast_mul, Nat.cast_sub hpos, Nat.cast_one]
  constructor
  · intro h
    have hexact := Double.isDouble_of_value h
    refine ⟨?_, hexact⟩
    by_contra hlarge
    have hlarge' : 2 ^ 53 ≤ page := by omega
    have heven : page % 2 = 0 :=
      even_of_representable (Double.isDouble_of_value hpage).1 (by simpa using hlarge')
    have hodd : (page - 1) % 2 = 1 := by omega
    have hbeyond : 2 ^ 53 < page - 1 := by omega
    have hne : limit ≠ 0 := by omega
    exact not_representable_mul hne hodd hbeyond hexact.1
  · intro h
    obtain ⟨hle, hexact⟩ := h
    have hsub : (params.page.sub (.ofInt 1)).value? = some ((page : Int) - 1) := by
      rw [Double.sub_eq hpage hone]
      exact value_small (by omega)
    unfold paginationOffset
    rw [Double.mul_eq hsub hlimit, ← hoffset]
    exact Double.value_ofInt_iff.mpr hexact

end JobScheduler

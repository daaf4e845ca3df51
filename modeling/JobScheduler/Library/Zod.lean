/-
  JobScheduler.Library.Zod
  ────────────────────────
  JSON values as `JSON.parse` gives them, and the validators of zod 3.  A
  validator gets the value of a key, or nothing when the key is missing, and
  answers with a value and a list of issues: no value is INVALID, a value with
  issues is DIRTY.  The validators of an object's keys all run, so the issues of
  one body come together.

  Each validator has one lemma that says which data it accepts.
-/
import Mathlib.Data.List.Forall2
import Mathlib.Data.Rat.Floor

namespace Zod

/-! ## §1. JSON values. -/

/-- A number of a JSON text; a literal beyond the doubles is read as an infinity. -/
inductive Number
  | finite (q : ℚ)
  | infinite (negative : Bool)
  deriving DecidableEq

/-- A JSON value as `JSON.parse` gives it. -/
inductive JsonValue
  | null
  | bool (b : Bool)
  | number (n : Number)
  | string (s : String)
  | array (items : List JsonValue)
  /-- The members as they are written. -/
  | object (members : List (String × JsonValue))

/-- `data[key]`: of two members with one key `JSON.parse` keeps the last. -/
def member (members : List (String × JsonValue)) (key : String) : Option JsonValue :=
  (members.reverse.find? (fun m => m.1 == key)).map Prod.snd

/-- `data[key]` of any value. -/
def JsonValue.get? (value : JsonValue) (key : String) : Option JsonValue :=
  match value with
  | .object members => member members key
  | _ => none

/-- `getParsedType`. -/
def parsedType : Option JsonValue → String
  | none => "undefined"
  | some .null => "null"
  | some (.bool _) => "boolean"
  | some (.number _) => "number"
  | some (.string _) => "string"
  | some (.array _) => "array"
  | some (.object _) => "object"

/-! ## §2. Results. -/

/-- One step of the path of an issue. -/
inductive PathItem
  | key (name : String)
  | index (i : Nat)

/-- The path from the root of the body to the value an issue is about. -/
abbrev Path := List PathItem

/-- A `ZodIssue`, as far as the error reply shows it. -/
structure Issue where
  path : Path
  message : String

/-- What a schema gives back: the value, if it has one, and the issues found. -/
structure Parsed (α : Type) where
  value : Option α
  issues : List Issue

namespace Parsed

variable {α β : Type}

/-- A valid result. -/
def ok (a : α) : Parsed α := ⟨some a, []⟩

/-- Apply a function to the value and keep the issues. -/
def map (f : α → β) (p : Parsed α) : Parsed β := ⟨p.value.map f, p.issues⟩

/-- One more component. -/
def ap (f : Parsed (α → β)) (p : Parsed α) : Parsed β :=
  ⟨f.value.bind (fun g => p.value.map g), f.issues ++ p.issues⟩

@[simp] theorem ok_inj {a b : α} : ok a = ok b ↔ a = b := by simp [ok]

theorem map_ok {f : α → β} {p : Parsed α} {b : β} : p.map f = ok b ↔ ∃ a, p = ok a ∧ f a = b := by
  obtain ⟨value, issues⟩ := p
  cases value <;> simp [map, ok, and_comm]

theorem ap_ok {f : Parsed (α → β)} {p : Parsed α} {b : β} :
    f.ap p = ok b ↔ ∃ g a, f = ok g ∧ p = ok a ∧ g a = b := by
  obtain ⟨fvalue, fissues⟩ := f
  obtain ⟨value, issues⟩ := p
  constructor
  · intro h
    obtain ⟨hvalue, hissues⟩ := Parsed.mk.inj h
    obtain ⟨g, rfl, hvalue⟩ := Option.bind_eq_some_iff.mp hvalue
    obtain ⟨a, rfl, rfl⟩ := Option.map_eq_some_iff.mp hvalue
    obtain ⟨rfl, rfl⟩ := List.append_eq_nil_iff.mp hissues
    exact ⟨g, a, rfl, rfl, rfl⟩
  · rintro ⟨g, a, hf, hp, rfl⟩
    cases hf
    cases hp
    rfl

end Parsed

/-! ## §3. Validators. -/

/-- A schema reads the value at a path; `none` is a missing key. -/
abbrev Schema (α : Type) := Path → Option JsonValue → Parsed α

section
variable {α β : Type}

/-- The `invalid_type` issue with zod's text. -/
def invalidType (expected : String) (path : Path) (data : Option JsonValue) : Parsed α where
  value := none
  issues := [⟨path, match data with
    | none => "Required"
    | some _ => s!"Expected {expected}, received {parsedType data}"⟩]

/-- `z.string()`. -/
def string : Schema String
  | _, some (.string s) => .ok s
  | path, data => invalidType "string" path data

/-- `z.number()`. -/
def number : Schema Number
  | _, some (.number n) => .ok n
  | path, data => invalidType "number" path data

/-- `z.boolean()`. -/
def boolean : Schema Bool
  | _, some (.bool b) => .ok b
  | path, data => invalidType "boolean" path data

/-- The value is kept and one issue added. -/
def check (p : α → Bool) (message : String) (s : Schema α) : Schema α := fun path data =>
  let r := s path data
  ⟨r.value, r.issues ++ (match r.value with
    | some a => if p a then [] else [⟨path, message⟩]
    | none => [])⟩

/-- Apply a function to what the schema gives. -/
def Schema.map (f : α → β) (s : Schema α) : Schema β := fun path data => (s path data).map f

/-- `.optional()`. -/
def optional (s : Schema α) : Schema (Option α)
  | _, none => .ok none
  | path, data => (s path data).map some

/-- `.nullable()`. -/
def nullable (s : Schema α) : Schema (Option α)
  | _, some .null => .ok none
  | path, data => (s path data).map some

/-- `.optional().nullable()`: a missing value or `null`. -/
def nullish (s : Schema α) : Schema (Option (Option α)) :=
  (nullable (optional s)).map (fun
    | none => some none
    | some none => none
    | some (some a) => some (some a))

/-- `.default(a)`. -/
def default (a : α) (s : Schema α) : Schema α
  | _, none => .ok a
  | path, data => s path data

/-- `util.joinValues`. -/
def joinValues (options : List String) : String :=
  " | ".intercalate (options.map (fun o => s!"'{o}'"))

/-- `z.enum([...])`, with the meaning of each option. -/
def enum (options : List (String × α)) : Schema α
  | path, some (.string s) =>
      match options.lookup s with
      | some a => .ok a
      | none => ⟨none, [⟨path,
          s!"Invalid enum value. Expected {joinValues (options.map Prod.fst)}, received '{s}'"⟩]⟩
  | path, data => invalidType (joinValues (options.map Prod.fst)) path data

/-- `z.record(z.unknown())`. -/
def record : Schema (List (String × JsonValue))
  | _, some (.object members) => .ok (members.filter (fun m => m.1 != "__proto__"))
  | path, data => invalidType "object" path data

/-- The items of an array, from index `i` on. -/
def items (s : Schema α) (path : Path) : Nat → List JsonValue → Parsed (List α)
  | _, [] => .ok []
  | i, v :: vs =>
      ((s (path ++ [.index i]) (some v)).map List.cons).ap (items s path (i + 1) vs)

/-- `z.array(s)`. -/
def array (s : Schema α) : Schema (List α)
  | path, some (.array vs) => items s path 0 vs
  | path, data => invalidType "array" path data

/-- The validator of one key. -/
def field (path : Path) (members : List (String × JsonValue)) (key : String) (s : Schema α) :
    Parsed α :=
  s (path ++ [.key key]) (member members key)

/-- `z.object({...})`: keys that no validator asks for are left out. -/
def object (shape : Path → List (String × JsonValue) → Parsed α) : Schema α
  | path, some (.object members) => shape path members
  | path, data => invalidType "object" path data

/-- `.superRefine`: unless the value is INVALID. -/
def superRefine (f : α → List Issue) (s : Schema α) : Schema α := fun path data =>
  let r := s path data
  ⟨r.value, r.issues ++ (r.value.map f).getD []⟩

/-- `schema.parse`. -/
def Schema.parse (s : Schema α) (data : JsonValue) : Except (List Issue) α :=
  match s [] (some data) with
  | ⟨some a, []⟩ => .ok a
  | r => .error r.issues

end

/-! ## §4. Numbers and texts. -/

/-- `Number.isInteger(n)`. -/
def Number.isInteger : Number → Bool
  | .finite q => decide (q.den = 1)
  | .infinite _ => false

/-- `n >= lo`. -/
def Number.atLeast (lo : Nat) : Number → Bool
  | .finite q => decide ((lo : ℚ) ≤ q)
  | .infinite negative => !negative

/-- `n <= hi`. -/
def Number.atMost (hi : Nat) : Number → Bool
  | .finite q => decide (q ≤ hi)
  | .infinite negative => negative

/-- The value of a number that is an integer and not negative. -/
def Number.toNat : Number → Nat
  | .finite q => q.num.toNat
  | .infinite _ => 0

/-- `z.number().int().min(lo)`. -/
def natural (lo : Nat) : Schema Nat :=
  ((number |> check Number.isInteger "Expected integer, received float") |>
    check (Number.atLeast lo) s!"Number must be greater than or equal to {lo}").map Number.toNat

/-- `z.number().int().min(lo).max(hi)`. -/
def naturalUpTo (lo hi : Nat) : Schema Nat :=
  (((number |> check Number.isInteger "Expected integer, received float") |>
    check (Number.atLeast lo) s!"Number must be greater than or equal to {lo}") |>
    check (Number.atMost hi) s!"Number must be less than or equal to {hi}").map Number.toNat

/-- `s.length`: UTF-16 code units. -/
def utf16Length (s : String) : Nat :=
  (s.toList.map (fun c => if c.toNat < 0x10000 then 1 else 2)).sum

/-- `.min(n)` of a string. -/
def minLength (n : Nat) : Schema String → Schema String :=
  check (fun s => decide (n ≤ utf16Length s)) s!"String must contain at least {n} character(s)"

/-- `.max(n)` of a string. -/
def maxLength (n : Nat) : Schema String → Schema String :=
  check (fun s => decide (utf16Length s ≤ n)) s!"String must contain at most {n} character(s)"

/-! ## §5. What is accepted. -/

section
variable {α β : Type} {s : Schema α} {path : Path} {data : Option JsonValue}

/-- A value of the wrong type is not accepted. -/
theorem invalidType_not_ok {expected : String} {a : α} : invalidType expected path data ≠ .ok a := by
  simp [invalidType, Parsed.ok]

theorem string_ok {a : String} : string path data = .ok a ↔ data = some (.string a) := by
  unfold string
  split
  · simp
  · rename_i hne
    exact ⟨fun h => absurd h invalidType_not_ok, fun h => absurd h (hne _)⟩

theorem number_ok {n : Number} : number path data = .ok n ↔ data = some (.number n) := by
  unfold number
  split
  · simp
  · rename_i hne
    exact ⟨fun h => absurd h invalidType_not_ok, fun h => absurd h (hne _)⟩

theorem boolean_ok {b : Bool} : boolean path data = .ok b ↔ data = some (.bool b) := by
  unfold boolean
  split
  · simp
  · rename_i hne
    exact ⟨fun h => absurd h invalidType_not_ok, fun h => absurd h (hne _)⟩

/-- A refinement accepts what its schema accepts and its test admits. -/
theorem check_ok {p : α → Bool} {message : String} {a : α} :
    check p message s path data = .ok a ↔ s path data = .ok a ∧ p a = true := by
  unfold check
  obtain ⟨value, issues⟩ := s path data
  cases value with
  | none => simp [Parsed.ok]
  | some b =>
      by_cases hp : p b = true
      · simp only [hp, if_true, List.append_nil, Parsed.ok, Parsed.mk.injEq, Option.some.injEq]
        constructor
        · rintro ⟨rfl, rfl⟩
          exact ⟨⟨rfl, rfl⟩, hp⟩
        · exact fun h => h.1
      · simp only [hp, Parsed.ok, Parsed.mk.injEq, Option.some.injEq]
        constructor
        · rintro ⟨_, h⟩
          simp at h
        · rintro ⟨⟨rfl, _⟩, h⟩
          exact absurd h hp

theorem schema_map_ok {f : α → β} {b : β} :
    s.map f path data = .ok b ↔ ∃ a, s path data = .ok a ∧ f a = b := Parsed.map_ok

/-- A missing key is accepted, a present value as its schema has it. -/
theorem optional_ok {o : Option α} : optional s path data = .ok o ↔
    (data = none ∧ o = none) ∨ (data ≠ none ∧ ∃ a, s path data = .ok a ∧ o = some a) := by
  cases data with
  | none => simp [optional, eq_comm]
  | some v => simp [optional, Parsed.map_ok, eq_comm]

/-- `null` is accepted, another value as its schema has it. -/
theorem nullable_ok {o : Option α} : nullable s path data = .ok o ↔
    (data = some .null ∧ o = none) ∨ (data ≠ some .null ∧ ∃ a, s path data = .ok a ∧ o = some a) := by
  unfold nullable
  split
  · simp [eq_comm]
  · rename_i hne
    have hnot : data ≠ some .null := fun h => hne h
    simp [hnot, Parsed.map_ok, eq_comm]

/-- A missing key and `null` are accepted, and told apart. -/
theorem nullish_ok {o : Option (Option α)} : nullish s path data = .ok o ↔
    (data = none ∧ o = none) ∨ (data = some .null ∧ o = some none) ∨
      (data ≠ none ∧ data ≠ some .null ∧ ∃ a, s path data = .ok a ∧ o = some (some a)) := by
  simp only [nullish, schema_map_ok, nullable_ok, optional_ok]
  constructor
  · rintro ⟨_, ⟨rfl, rfl⟩ | ⟨hnull, _, ⟨rfl, rfl⟩ | ⟨hnone, a, ha, rfl⟩, rfl⟩, rfl⟩
    · exact .inr (.inl ⟨rfl, rfl⟩)
    · exact .inl ⟨rfl, rfl⟩
    · exact .inr (.inr ⟨hnone, hnull, a, ha, rfl⟩)
  · rintro (⟨rfl, rfl⟩ | ⟨rfl, rfl⟩ | ⟨hnone, hnull, a, ha, rfl⟩)
    · exact ⟨some none, .inr ⟨by simp, none, .inl ⟨rfl, rfl⟩, rfl⟩, rfl⟩
    · exact ⟨none, .inl ⟨rfl, rfl⟩, rfl⟩
    · exact ⟨some (some a), .inr ⟨hnull, some a, .inr ⟨hnone, a, ha, rfl⟩, rfl⟩, rfl⟩

/-- A missing key is given the default, which the schema does not check. -/
theorem default_ok {a b : α} : default a s path data = .ok b ↔
    (data = none ∧ b = a) ∨ (data ≠ none ∧ s path data = .ok b) := by
  cases data <;> simp [default, eq_comm]

theorem enum_ok {options : List (String × α)} {a : α} : enum options path data = .ok a ↔
    ∃ t, data = some (.string t) ∧ options.lookup t = some a := by
  unfold enum
  split
  · split
    · rename_i hlookup
      simp [hlookup]
    · rename_i hlookup
      simp [hlookup, Parsed.ok]
  · rename_i hne
    refine ⟨fun h => absurd h invalidType_not_ok, ?_⟩
    rintro ⟨t, rfl, _⟩
    exact absurd rfl (hne t)

theorem items_ok {vs : List JsonValue} : ∀ {i : Nat} {as : List α}, items s path i vs = .ok as →
    List.Forall₂ (fun v a => ∃ path, s path (some v) = .ok a) vs as := by
  induction vs with
  | nil =>
      intro i as h
      obtain rfl := Parsed.ok_inj.mp h
      exact .nil
  | cons v vs ih =>
      intro i as h
      obtain ⟨g, rest, hg, hrest, rfl⟩ := Parsed.ap_ok.mp h
      obtain ⟨a, ha, rfl⟩ := Parsed.map_ok.mp hg
      exact .cons ⟨_, ha⟩ (ih hrest)

theorem array_ok {as : List α} (h : array s path data = .ok as) :
    ∃ vs, data = some (.array vs) ∧ List.Forall₂ (fun v a => ∃ path, s path (some v) = .ok a) vs as := by
  unfold array at h
  split at h
  · exact ⟨_, rfl, items_ok h⟩
  · exact absurd h invalidType_not_ok

/-- Where the `i`-th element of the result comes from. -/
theorem getElem?_of_forall₂ {r : α → β → Prop} {as : List α} {bs : List β}
    (h : List.Forall₂ r as bs) {i : Nat} {b : β} (hb : bs[i]? = some b) :
    ∃ a, as[i]? = some a ∧ r a b := by
  induction h generalizing i with
  | nil => cases hb
  | cons hr _ ih =>
      cases i with
      | zero =>
          cases hb
          exact ⟨_, rfl, hr⟩
      | succ i => exact ih hb

theorem exists_of_mem_forall₂ {r : α → β → Prop} {as : List α} {bs : List β}
    (h : List.Forall₂ r as bs) {b : β} (hb : b ∈ bs) : ∃ a ∈ as, r a b := by
  obtain ⟨i, hi⟩ := List.mem_iff_getElem?.mp hb
  obtain ⟨a, ha, hr⟩ := getElem?_of_forall₂ h hi
  exact ⟨a, List.mem_of_getElem? ha, hr⟩

theorem object_ok {shape : Path → List (String × JsonValue) → Parsed α} {a : α} :
    object shape path data = .ok a ↔ ∃ members, data = some (.object members) ∧ shape path members = .ok a := by
  unfold object
  split
  · simp
  · rename_i hne
    refine ⟨fun h => absurd h invalidType_not_ok, ?_⟩
    rintro ⟨members, rfl, _⟩
    exact absurd rfl (hne members)

/-- The refinement adds its issues to an accepted object. -/
theorem superRefine_ok {f : α → List Issue} {a : α} :
    superRefine f s path data = .ok a ↔ s path data = .ok a ∧ f a = [] := by
  unfold superRefine
  obtain ⟨value, issues⟩ := s path data
  cases value with
  | none => simp [Parsed.ok]
  | some b =>
      simp only [Parsed.ok, Option.map_some, Option.getD_some, Parsed.mk.injEq, Option.some.injEq,
        List.append_eq_nil_iff]
      constructor
      · rintro ⟨rfl, rfl, hf⟩
        exact ⟨⟨rfl, rfl⟩, hf⟩
      · rintro ⟨⟨rfl, rfl⟩, hf⟩
        exact ⟨rfl, rfl, hf⟩

theorem parse_ok {value : JsonValue} {a : α} : s.parse value = .ok a ↔ s [] (some value) = .ok a := by
  unfold Schema.parse
  split
  · rename_i h
    simp [h, Parsed.ok]
  · rename_i hne
    refine ⟨?_, fun h => absurd h (hne a)⟩
    intro h
    cases h

/-- An integer from `lo` on is its natural number. -/
theorem Number.eq_toNat {n : Number} {lo : Nat} (hint : n.isInteger = true)
    (hlo : n.atLeast lo = true) : n = .finite n.toNat ∧ lo ≤ n.toNat := by
  cases n with
  | infinite negative => cases hint
  | finite q =>
      have hq : (q.num : ℚ) = q := Rat.coe_int_num_of_den_eq_one (of_decide_eq_true hint)
      have hle : (lo : ℚ) ≤ q := of_decide_eq_true hlo
      rw [← hq] at hle
      have hnum : (lo : ℤ) ≤ q.num := by exact_mod_cast hle
      have hcast : ((q.num.toNat : ℕ) : ℤ) = q.num := Int.toNat_of_nonneg (by omega)
      refine ⟨?_, by simp only [toNat]; omega⟩
      rw [toNat, Number.finite.injEq, ← hq]
      exact_mod_cast hcast.symm

/-- A natural number not below its bound. -/
theorem natural_ok {lo n : Nat} : natural lo path data = .ok n ↔
    data = some (.number (.finite n)) ∧ lo ≤ n := by
  simp only [natural, schema_map_ok, check_ok, number_ok]
  constructor
  · rintro ⟨m, ⟨⟨rfl, hint⟩, hlo⟩, rfl⟩
    obtain ⟨heq, hle⟩ := Number.eq_toNat hint hlo
    exact ⟨by rw [← heq], hle⟩
  · rintro ⟨rfl, hlo⟩
    exact ⟨_, ⟨⟨rfl, by simp [Number.isInteger]⟩, by simpa [Number.atLeast] using hlo⟩,
      by simp [Number.toNat]⟩

/-- A natural number between its bounds. -/
theorem naturalUpTo_ok {lo hi n : Nat} : naturalUpTo lo hi path data = .ok n ↔
    data = some (.number (.finite n)) ∧ lo ≤ n ∧ n ≤ hi := by
  simp only [naturalUpTo, schema_map_ok, check_ok, number_ok]
  constructor
  · rintro ⟨m, ⟨⟨⟨rfl, hint⟩, hlo⟩, hhi⟩, rfl⟩
    obtain ⟨heq, hle⟩ := Number.eq_toNat hint hlo
    rw [heq] at hhi
    exact ⟨by rw [← heq], hle, by simpa [Number.atMost] using hhi⟩
  · rintro ⟨rfl, hlo, hhi⟩
    exact ⟨_, ⟨⟨⟨rfl, by simp [Number.isInteger]⟩, by simpa [Number.atLeast] using hlo⟩,
      by simpa [Number.atMost] using hhi⟩, by simp [Number.toNat]⟩

end

end Zod

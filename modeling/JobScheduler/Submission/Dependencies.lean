/-
  JobScheduler.Submission.Dependencies
  ────────────────────────────────────
  The check of `depends_on`.  It compares the number of rows of a join with the
  number of distinct strings.  The join finds a row for each existing job of the
  organisation, the strings may spell one job in several ways.
-/
import JobScheduler.System.State

namespace JobScheduler

open Relational

/-! ## §1. The join. -/

/-- The rows of the SELECT: one for each membership of the user in the organisation of the
target queue and each listed job of that organisation. -/
def Db.dependencyJoin (db : Db) (queueId userId : UUID) (ids : List UUID) : List (UUID × Job) :=
  match db.orgOfQueue queueId with
  | none => []
  | some org =>
      (db.members.filter (fun m => m.orgId == org && m.userId == userId)).flatMap (fun _ =>
        db.jobs.select (fun id dep =>
          decide (id ∈ ids) && decide (db.orgOfQueue dep.queueId = some org)))

/-- PRIMARY KEY (org_id, user_id). -/
def Db.MembersKeyed (db : Db) : Prop := (db.members.map (fun m => (m.orgId, m.userId))).Nodup

section
variable {db : Db} {queueId userId : UUID}

/-- A user has at most one membership. -/
theorem memberships_le_one (hpk : db.MembersKeyed) (org : UUID) :
    (db.members.filter (fun m => m.orgId == org && m.userId == userId)).length ≤ 1 := by
  have hnodup : ((db.members.filter (fun m => m.orgId == org && m.userId == userId)).map
      (fun m => (m.orgId, m.userId))).Nodup := hpk.sublist (List.filter_sublist.map _)
  have hall : ∀ m ∈ db.members.filter (fun m => m.orgId == org && m.userId == userId),
      (m.orgId, m.userId) = (org, userId) := by
    intro m hm
    simpa using (List.mem_filter.mp hm).2
  generalize db.members.filter (fun m => m.orgId == org && m.userId == userId) = ms at hnodup hall
  match ms with
  | [] => simp
  | [_] => simp
  | m :: m' :: _ =>
      have hkeys : (m.orgId, m.userId) = (m'.orgId, m'.userId) :=
        (hall m (by simp)).trans (hall m' (by simp)).symm
      simp [hkeys] at hnodup

theorem roleIn_isSome {org : UUID} : (db.roleIn org userId).isSome ↔
    ∃ m, m ∈ db.members.filter (fun m => m.orgId == org && m.userId == userId) := by
  simp only [Db.roleIn, Option.isSome_map, List.find?_isSome, List.mem_filter]

/-- The row that the check finds is a job in the user's organisation. -/
theorem dependencyRow_iff {d : UUID} {row : Job} : db.dependencyRow queueId userId d = some row ↔
    db.jobs.lookup d = some row ∧ ∃ org, db.orgOfQueue queueId = some org ∧
      db.orgOfQueue row.queueId = some org ∧ (db.roleIn org userId).isSome := by
  refine ⟨dependencyRow_eq_some, ?_⟩
  rintro ⟨hlookup, org, horg, hdep, hrole⟩
  simp [Db.dependencyRow, horg, hlookup, hdep, hrole, guard]

/-- The rows of the join. -/
theorem mem_dependencyJoin {ids : List UUID} {p : UUID × Job} :
    p ∈ db.dependencyJoin queueId userId ids ↔
      p.1 ∈ ids ∧ db.dependencyRow queueId userId p.1 = some p.2 := by
  obtain ⟨d, row⟩ := p
  rw [dependencyRow_iff]
  unfold Db.dependencyJoin
  cases db.orgOfQueue queueId with
  | none => simp
  | some org =>
      simp only [List.mem_flatMap, Table.mem_select_iff, Bool.and_eq_true, decide_eq_true_eq,
        Option.some.injEq, exists_eq_left', roleIn_isSome]
      constructor
      · rintro ⟨m, hm, hlookup, hids, hdep⟩
        exact ⟨hids, hlookup, hdep, m, hm⟩
      · rintro ⟨hids, hlookup, hdep, m, hm⟩
        exact ⟨m, hm, hlookup, hids, hdep⟩

/-- With keyed members the join gives no job twice. -/
theorem dependencyJoin_nodup (hpk : db.MembersKeyed) (ids : List UUID) :
    (db.dependencyJoin queueId userId ids).Nodup := by
  unfold Db.dependencyJoin
  cases db.orgOfQueue queueId with
  | none => exact List.nodup_nil
  | some org =>
      have hone : (db.members.filter (fun m => m.orgId == org && m.userId == userId)).length ≤ 1 :=
        memberships_le_one hpk org
      dsimp only
      generalize db.members.filter (fun m => m.orgId == org && m.userId == userId) = ms at hone ⊢
      match ms with
      | [] => exact List.nodup_nil
      | [_] => simpa using (Table.nodup_select _ _).of_map
      | _ :: _ :: _ => simp at hone

/-- **The join has a row for each listed job of the organisation**, once. -/
theorem dependencyJoin_perm (hpk : db.MembersKeyed) (ids : List UUID) :
    ((db.dependencyJoin queueId userId ids).map Prod.snd).Perm
      (ids.dedup.filterMap (db.dependencyRow queueId userId)) := by
  have hrow : ∀ id, ((db.dependencyRow queueId userId id).map (fun row => (id, row))).map Prod.snd =
      db.dependencyRow queueId userId id := by
    intro id
    cases db.dependencyRow queueId userId id <;> rfl
  have hperm : (db.dependencyJoin queueId userId ids).Perm
      (ids.dedup.filterMap (fun id => (db.dependencyRow queueId userId id).map (fun row => (id, row)))) := by
    refine (List.perm_ext_iff_of_nodup (dependencyJoin_nodup hpk ids) ?_).mpr fun p => ?_
    · refine (List.nodup_dedup ids).filterMap ?_
      intro a a' b hb hb'
      obtain ⟨_, _, rfl⟩ := Option.map_eq_some_iff.mp hb
      obtain ⟨_, _, heq⟩ := Option.map_eq_some_iff.mp hb'
      exact (Prod.mk.inj heq).1.symm
    · rw [mem_dependencyJoin, List.mem_filterMap]
      constructor
      · rintro ⟨hid, hp⟩
        exact ⟨p.1, List.mem_dedup.mpr hid, by rw [hp]; rfl⟩
      · rintro ⟨id, hid, hp⟩
        obtain ⟨row, hrow, rfl⟩ := Option.map_eq_some_iff.mp hp
        exact ⟨List.mem_dedup.mp hid, hrow⟩
  refine (hperm.map Prod.snd).trans (List.Perm.of_eq ?_)
  rw [List.map_filterMap]
  exact List.filterMap_congr (fun id _ => hrow id)

/-- The check, as the rows of the join answer it. -/
theorem dependenciesAreSatisfied_join (hpk : db.MembersKeyed) (dependsOn : List UuidText) :
    let rows := db.dependencyJoin queueId userId (dependsOn.dedup.map (·.value))
    dependenciesAreSatisfied db queueId userId dependsOn =
      if dependsOn.dedup = [] then some true
      else if rows.length ≠ dependsOn.dedup.length then none
      else some (rows.all (fun row => decide (row.2.status = .completed))) := by
  intro rows
  have hperm : (rows.map Prod.snd).Perm _ := dependencyJoin_perm hpk (dependsOn.dedup.map (·.value))
  have hlen : ((dependsOn.dedup.map (·.value)).dedup.filterMap
      (db.dependencyRow queueId userId)).length = rows.length := by
    rw [← hperm.length_eq, List.length_map]
  have hall : ((dependsOn.dedup.map (·.value)).dedup.filterMap
      (db.dependencyRow queueId userId)).all (fun row => decide (row.status = .completed)) =
      rows.all (fun row => decide (row.2.status = .completed)) := by
    rw [← hperm.all_eq, List.all_map]
    rfl
  unfold dependenciesAreSatisfied
  dsimp only
  rw [hlen, hall]

end

/-! ## §2. What the check finds. -/

/-- No error exactly when every listed job has its row and no two strings spell one value. -/
theorem dependenciesAreSatisfied_isSome {db : Db} {queueId userId : UUID} {dependsOn : List UuidText} :
    (dependenciesAreSatisfied db queueId userId dependsOn).isSome ↔
      (∀ x ∈ dependsOn, (db.dependencyRow queueId userId x.value).isSome) ∧
      ∀ x ∈ dependsOn, ∀ y ∈ dependsOn, x.value = y.value → x = y := by
  have hle := List.length_filterMap_le (db.dependencyRow queueId userId) (dependsOn.dedup.map (·.value)).dedup
  have hsub := List.dedup_sublist (dependsOn.dedup.map (·.value))
  have hrows : ((dependsOn.dedup.map (·.value)).dedup.filterMap (db.dependencyRow queueId userId)).length =
      (dependsOn.dedup.map (·.value)).dedup.length ↔
      ∀ x ∈ dependsOn, (db.dependencyRow queueId userId x.value).isSome := by
    rw [List.filterMap_length_eq_length]
    simp
  have hvalues : (dependsOn.dedup.map (·.value)).dedup.length = dependsOn.dedup.length ↔
      ∀ x ∈ dependsOn, ∀ y ∈ dependsOn, x.value = y.value → x = y := by
    have hnodup : (dependsOn.dedup.map (·.value)).dedup.length = dependsOn.dedup.length ↔
        (dependsOn.dedup.map (·.value)).Nodup := by
      rw [← List.dedup_eq_self]
      constructor
      · intro hlen
        exact hsub.eq_of_length (by rw [hlen, List.length_map])
      · intro heq
        rw [heq, List.length_map]
    rw [hnodup, List.nodup_map_iff_inj_on (List.nodup_dedup dependsOn)]
    simp only [List.mem_dedup]
  have hlen := hsub.length_le
  rw [List.length_map] at hlen
  unfold dependenciesAreSatisfied
  dsimp only
  split
  · rename_i hnil
    rw [List.dedup_eq_nil] at hnil
    simp [hnil]
  · rw [← hrows, ← hvalues]
    split
    · rename_i hne
      simp only [Option.isSome_none, Bool.false_eq_true, false_iff]
      rintro ⟨hr, hv⟩
      exact hne (hr.trans hv)
    · rename_i heq
      rw [not_not] at heq
      simp only [Option.isSome_some, true_iff]
      omega

/-- Without an error the answer is whether all listed jobs are completed. -/
theorem dependenciesAreSatisfied_eq_some {db : Db} {queueId userId : UUID} {dependsOn : List UuidText}
    {satisfied : Bool} (h : dependenciesAreSatisfied db queueId userId dependsOn = some satisfied) :
    satisfied = true ↔ ∀ x ∈ dependsOn, ∀ row, db.dependencyRow queueId userId x.value = some row →
      row.status = .completed := by
  constructor
  · intro hs x hx row hrow
    obtain ⟨row', hrow', hcompleted⟩ := dependencyRow_of_satisfied h hx
    rw [hrow] at hrow'
    cases hrow'
    exact hcompleted hs
  · intro hall
    unfold dependenciesAreSatisfied at h
    dsimp only at h
    split at h
    · exact (Option.some.inj h).symm
    · split at h
      · cases h
      · rw [← Option.some.inj h, List.all_eq_true]
        intro row hrow
        obtain ⟨v, hv, hvrow⟩ := List.mem_filterMap.mp hrow
        obtain ⟨x, hx, rfl⟩ := List.mem_map.mp (List.mem_dedup.mp hv)
        exact decide_eq_true (hall x (List.mem_dedup.mp hx) row hvrow)

/-! ## §3. Strings. -/

/-- The string names the job, which belongs to the organisation of the queue. -/
def Db.Names (db : Db) (queueId : UUID) (text : String) (row : Job) : Prop :=
  ∃ x org, UuidText.read text = some x ∧ db.jobs.lookup x.value = some row ∧
    db.orgOfQueue queueId = some org ∧ db.orgOfQueue row.queueId = some org

/-- Some string names no existing job of the organisation. -/
def Db.NamesNone (db : Db) (queueId : UUID) (texts : List String) : Prop :=
  ∃ text ∈ texts, ∀ row, ¬ db.Names queueId text row

/-- No UUID is spelled in two ways. -/
def OneSpelling (texts : List String) : Prop :=
  ∀ s ∈ texts, ∀ t ∈ texts, (UuidText.read s).map (·.value) = (UuidText.read t).map (·.value) → s = t

/-- What the check should find. -/
structure ExactCheck (db : Db) (queueId userId : UUID) (texts : List String) : Prop where
  throws : dependenciesAreSatisfied db queueId userId (texts.filterMap UuidText.read) = none ↔
    db.NamesNone queueId texts
  returns : ∀ satisfied,
    dependenciesAreSatisfied db queueId userId (texts.filterMap UuidText.read) = some satisfied →
    (satisfied = true ↔ ∀ text ∈ texts, ∀ row, db.Names queueId text row → row.status = .completed)

section
variable {db : Db} {queueId userId org : UUID} {texts : List String}

/-- For a member, the rows of the join are those of the named jobs. -/
theorem names_iff (horg : db.orgOfQueue queueId = some org) (hmember : (db.roleIn org userId).isSome)
    {text : String} {x : UuidText} (hread : UuidText.read text = some x) {row : Job} :
    db.Names queueId text row ↔ db.dependencyRow queueId userId x.value = some row := by
  rw [dependencyRow_iff]
  constructor
  · rintro ⟨y, org', hy, hlookup, hq, hdep⟩
    rw [hread] at hy
    cases hy
    rw [horg] at hq
    cases hq
    exact ⟨hlookup, org, horg, hdep, hmember⟩
  · rintro ⟨hlookup, org', hq, hdep, _⟩
    exact ⟨x, org', hread, hlookup, hq, hdep⟩

/-- Two spellings are two strings of one value. -/
theorem oneSpelling_iff (hvalid : ∀ text ∈ texts, (UuidText.read text).isSome) :
    OneSpelling texts ↔ ∀ x ∈ texts.filterMap UuidText.read, ∀ y ∈ texts.filterMap UuidText.read,
      x.value = y.value → x = y := by
  constructor
  · intro h x hx y hy hxy
    obtain ⟨s, hs, hsx⟩ := List.mem_filterMap.mp hx
    obtain ⟨t, ht, hty⟩ := List.mem_filterMap.mp hy
    have hst := h s hs t ht (by rw [hsx, hty, Option.map_some, Option.map_some, hxy])
    rw [hst, hty] at hsx
    exact (Option.some.inj hsx).symm
  · intro h s hs t ht hst
    obtain ⟨x, hx⟩ := Option.isSome_iff_exists.mp (hvalid s hs)
    obtain ⟨y, hy⟩ := Option.isSome_iff_exists.mp (hvalid t ht)
    rw [hx, hy] at hst
    have hxy := h x (List.mem_filterMap.mpr ⟨s, hs, hx⟩) y (List.mem_filterMap.mpr ⟨t, ht, hy⟩)
      (Option.some.inj hst)
    exact UuidText.read_injective hx (hxy ▸ hy)

/-- For a member and valid texts, each text names a job exactly when the check finds each id. -/
theorem namesNone_iff (horg : db.orgOfQueue queueId = some org)
    (hmember : (db.roleIn org userId).isSome)
    (hvalid : ∀ text ∈ texts, (UuidText.read text).isSome) :
    ¬ db.NamesNone queueId texts ↔
      ∀ x ∈ texts.filterMap UuidText.read, (db.dependencyRow queueId userId x.value).isSome := by
  simp only [Db.NamesNone, not_exists, not_and, not_forall, not_not]
  constructor
  · intro h x hx
    obtain ⟨text, htext, hread⟩ := List.mem_filterMap.mp hx
    obtain ⟨row, hrow⟩ := h text htext
    rw [(names_iff horg hmember hread).mp hrow]
    rfl
  · intro h text htext
    obtain ⟨x, hread⟩ := Option.isSome_iff_exists.mp (hvalid text htext)
    obtain ⟨row, hrow⟩ := Option.isSome_iff_exists.mp (h x (List.mem_filterMap.mpr ⟨text, htext, hread⟩))
    exact ⟨row, (names_iff horg hmember hread).mpr hrow⟩

/-- **The check of the prerequisites is exact when no UUID is spelled in two ways**, or when it
fails rightly.  For every database, every queue, every member of its organisation and every list of
valid strings. -/
theorem dependency_check_exact_iff (horg : db.orgOfQueue queueId = some org)
    (hmember : (db.roleIn org userId).isSome)
    (hvalid : ∀ text ∈ texts, (UuidText.read text).isSome) :
    ExactCheck db queueId userId texts ↔ OneSpelling texts ∨ db.NamesNone queueId texts := by
  have hsome : (dependenciesAreSatisfied db queueId userId (texts.filterMap UuidText.read)).isSome ↔ _ :=
    dependenciesAreSatisfied_isSome
  rw [← oneSpelling_iff hvalid, ← namesNone_iff horg hmember hvalid] at hsome
  have hnone : dependenciesAreSatisfied db queueId userId (texts.filterMap UuidText.read) = none ↔
      db.NamesNone queueId texts ∨ ¬ OneSpelling texts := by
    rw [← Option.not_isSome_iff_eq_none, hsome, not_and_or, not_not]
  constructor
  · intro h
    by_cases hone : OneSpelling texts
    · exact .inl hone
    · exact .inr (h.throws.mp (hnone.mpr (.inr hone)))
  · intro h
    refine ⟨hnone.trans ?_, fun satisfied hs => (dependenciesAreSatisfied_eq_some hs).trans ?_⟩
    · constructor
      · rintro (hn | hn)
        · exact hn
        · exact h.resolve_left hn
      · exact .inl
    · constructor
      · intro hall text htext row hrow
        obtain ⟨x, hread⟩ := Option.isSome_iff_exists.mp (hvalid text htext)
        exact hall x (List.mem_filterMap.mpr ⟨text, htext, hread⟩) row
          ((names_iff horg hmember hread).mp hrow)
      · intro hall x hx row hrow
        obtain ⟨text, htext, hread⟩ := List.mem_filterMap.mp hx
        exact hall text htext row ((names_iff horg hmember hread).mpr hrow)

end

/-! ## §4. One job in two spellings. -/

/-- Job 10 is completed. -/
def Db.smallTen : Db := Db.small 1 [(10, Job.small .completed)]

/-- The id 10 in lower case. -/
def tenLower : String := "00000000-0000-0000-0000-00000000000a"

/-- The id 10 in upper case. -/
def tenUpper : String := "00000000-0000-0000-0000-00000000000A"

theorem read_tenLower : (UuidText.read tenLower).map (·.value) = some 10 := by decide +kernel

theorem read_tenUpper : (UuidText.read tenUpper).map (·.value) = some 10 := by decide +kernel

theorem names_ten {text : String} (h : (UuidText.read text).map (·.value) = some 10) :
    Db.smallTen.Names 1 text (Job.small .completed) := by
  obtain ⟨x, hx, hv⟩ := Option.map_eq_some_iff.mp h
  exact ⟨x, 1, hx, by rw [hv]; rfl, rfl, rfl⟩

theorem dependency_check_exact_twice : ExactCheck Db.smallTen 1 1 [tenLower, tenLower] := by
  refine (dependency_check_exact_iff (show Db.smallTen.orgOfQueue 1 = some 1 from rfl) (by decide) ?_).mpr
    (.inl ?_)
  · intro text htext
    obtain rfl : text = tenLower := by simpa using htext
    obtain ⟨x, hx, _⟩ := Option.map_eq_some_iff.mp read_tenLower
    simp [hx]
  · intro s hs t ht _
    obtain rfl : s = tenLower := by simpa using hs
    obtain rfl : t = tenLower := by simpa using ht
    rfl

/-- Both strings name the completed job 10, and the request is refused. -/
theorem two_spellings_refused :
    (∀ text ∈ [tenLower, tenUpper], Db.smallTen.Names 1 text (Job.small .completed)) ∧
      dependenciesAreSatisfied Db.smallTen 1 1 ([tenLower, tenUpper].filterMap UuidText.read) = none ∧
      ¬ ExactCheck Db.smallTen 1 1 [tenLower, tenUpper] := by
  have hnames : ∀ text ∈ [tenLower, tenUpper], Db.smallTen.Names 1 text (Job.small .completed) := by
    intro text htext
    rcases List.mem_pair.mp htext with rfl | rfl
    · exact names_ten read_tenLower
    · exact names_ten read_tenUpper
  have hnone : dependenciesAreSatisfied Db.smallTen 1 1 ([tenLower, tenUpper].filterMap UuidText.read) =
      none := by decide +kernel
  refine ⟨hnames, hnone, fun h => ?_⟩
  obtain ⟨text, htext, hno⟩ := h.throws.mp hnone
  exact hno _ (hnames text htext)

end JobScheduler

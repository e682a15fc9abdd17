import CatalogCache.Proofs.NameLookup

/-!
# Entries without a name

An entry without a name counts as one with the empty name, and so does a query of blanks. Such a
query finds the entries without a name and no others. Every other query finds entries with a name
only.
-/

namespace CatalogCache

namespace Value

/-- The value has a name, and the name is not empty. -/
def HasName (v : Value) : Prop := ∃ t, v.property "name" = .ok (.text t) ∧ t ≠ []

theorem hasName_iff {v : Value} : v.HasName ↔ v.nameText ≠ [] := by
  unfold HasName nameText
  constructor
  · rintro ⟨t, hproperty, ht⟩
    rw [hproperty]
    exact ht
  · intro h
    split at h
    · next t hproperty => exact ⟨t, hproperty, h⟩
    · exact absurd rfl h

theorem Matches.hasName_iff {v : Value} {query : Text} (h : v.Matches query) :
    v.HasName ↔ query.strip ≠ [] := by
  rw [Value.hasName_iff, ne_eq, ← Text.lower_eq_nil, h, Text.lower_eq_nil]

theorem matches_of_unnamed {v : Value} {query : Text} (hblank : query.strip = [])
    (hunnamed : ¬v.HasName) : v.Matches query := by
  rw [Value.hasName_iff, not_not] at hunnamed
  rw [Matches, hunnamed, hblank]

end Value

open Lookup in
/-- **Unnamed entries.** A lookup finds named entries only, and fails with the error of its catalog
where no named entry matches, exactly if the query is not blank or all entries have names. In any
case it finds the first entry that matches, and that entry has a name unless the query is blank. -/
theorem named_found_iff (client : Client) (c : Catalog) {w : World} {a : Answer}
    {entries : List Value} (hreply : ((client.answer (.collection c)).exec w).1 = .ok a)
    (hitems : a.items? = .ok ⟨entries, none⟩) (hnamed : ∀ v ∈ entries, v.IsNamed) (query : Text) :
    ((∀ y, ((client.find c (.text query)).exec w).1 = .ok y → y.HasName) ∧
        ((∀ u ∈ entries, u.HasName → ¬u.Matches query) →
          ((client.find c (.text query)).exec w).1 =
            .error (.noSuchEntry (some c) (.text query))) ↔
      ¬(query.strip = [] ∧ ∃ u ∈ entries, ¬u.HasName)) ∧
    (∀ y, ((client.find c (.text query)).exec w).1 = .ok y ↔
      ∃ i, FirstAt (·.Matches query) entries i y) ∧
    (∀ y, ((client.find c (.text query)).exec w).1 = .ok y → (y.HasName ↔ query.strip ≠ [])) ∧
    ∀ e, ((client.find c (.text query)).exec w).1 = .error e ↔
      e = .noSuchEntry (some c) (.text query) ∧ ∀ u ∈ entries, ¬u.Matches query := by
  rw [client.find_result c _ hreply]
  have hfound : ∀ y, (Lookup.find c a (.text query)).map (·.2) = .ok y ↔
      ∃ i, FirstAt (·.Matches query) entries i y := fun y => find_query_eq_ok_iff hnamed hitems
  have hmissed : ∀ e, (Lookup.find c a (.text query)).map (·.2) = .error e ↔
      e = .noSuchEntry (some c) (.text query) ∧ ∀ u ∈ entries, ¬u.Matches query :=
    fun e => find_query_eq_error_iff hnamed hitems
  have hname : ∀ y, (Lookup.find c a (.text query)).map (·.2) = .ok y →
      (y.HasName ↔ query.strip ≠ []) := by
    intro y hy
    obtain ⟨i, hfirst⟩ := (hfound y).mp hy
    exact hfirst.holds.hasName_iff
  refine ⟨⟨?_, fun hnot => ⟨fun y hy => ?_, fun hnone => ?_⟩⟩, hfound, hname, hmissed⟩
  · rintro ⟨honly, -⟩ ⟨hblank, u, hu, hunnamed⟩
    obtain ⟨i, y, hfirst⟩ := exists_firstAt (p := (·.Matches query)) hu
      (Value.matches_of_unnamed hblank hunnamed)
    have hy := (hfound y).mpr ⟨i, hfirst⟩
    exact (hname y hy).mp (honly y hy) hblank
  · by_contra hunnamed
    obtain ⟨i, hfirst⟩ := (hfound y).mp hy
    have hblank : query.strip = [] := not_not.mp ((hname y hy).not.mp hunnamed)
    exact hnot ⟨hblank, y, hfirst.mem, hunnamed⟩
  · refine (hmissed _).mpr ⟨rfl, fun u hu hmatches => ?_⟩
    by_cases hu' : u.HasName
    · exact hnone u hu hu' hmatches
    · exact hnot ⟨not_not.mp (hmatches.hasName_iff.not.mp hu'), u, hu, hu'⟩

/-- A priority without a name. -/
def unnamedPriority : Value :=
  .record .priority [.text "/9", .int 9, .null, .null, .null, .null]

theorem unnamed_found :
    ¬unnamedPriority.HasName ∧ (((Client.remote "jira").find .priorities (.text " ")).exec
      (Cached.sampleWorld fun _ => [unnamedPriority])).1 = .ok unnamedPriority := by
  have hnamed : ∀ v ∈ [unnamedPriority], v.IsNamed :=
    List.forall_mem_singleton.mpr ⟨.null, rfl, .null _⟩
  have hmatches : unnamedPriority.Matches " " := rfl
  obtain ⟨-, hfound, hname, -⟩ := named_found_iff (.remote "jira") .priorities
    (w := Cached.sampleWorld fun _ => [unnamedPriority]) (a := .value (.list [unnamedPriority]))
    rfl rfl hnamed " "
  have hfirst := (hfound _).mpr ⟨0, (Lookup.firstAt_cons_of_pos hmatches).mpr ⟨rfl, rfl⟩⟩
  exact ⟨fun h => (hname _ hfirst).mp h rfl, hfirst⟩

end CatalogCache

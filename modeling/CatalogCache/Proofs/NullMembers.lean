import CatalogCache.Payload
import CatalogCache.Proofs.Results
import CatalogCache.Value.Property

/-!
# Members that are null

A member that is null counts as one that is not there. Only what becomes a label shows the
difference: an absent member gives the empty text, and null the text "None".
-/

namespace CatalogCache

/-! ## Members taken out -/

namespace Ordered

variable {α : Type}

/-- The entries without those of a name. -/
def erase (entries : Ordered α) (name : Text) : Ordered α := entries.filter (·.1 ≠ name)

theorem get?_erase (entries : Ordered α) (name other : Text) :
    (erase entries name).get? other = if other = name then none else entries.get? other := by
  unfold get? erase
  rw [List.find?_filter]
  split_ifs with hname
  · simp [hname]
  · congr 2
    funext entry
    by_cases hother : entry.1 = other
    · simp [hother, hname]
    · simp [hother]

end Ordered

namespace Payload

variable {nested nested' : Json → Except Failure Value} {cls : RecordClass}
  {members members' inner : Members} {key : Text}

/-! ## Readings -/

theorem value_null {reading : Reading} (h : reading ≠ .label) :
    reading.value nested (some .null) = reading.value nested none := by
  cases reading with
  | label => exact absurd rfl h
  | _ => rfl

theorem record_congr
    (h : ∀ entry ∈ readings cls, entry.2.value nested (Ordered.get? members entry.1) =
      entry.2.value nested' (Ordered.get? members' entry.1)) :
    record nested cls members = record nested' cls members' :=
  congrArg (Value.record cls <$> ·) (mapM_congr h)

theorem label_mem_readings :
    (key, .label) ∈ readings cls ↔ key = "id" ∧ (cls = .issueLinkType ∨ cls = .field) := by
  cases cls <;> simp [readings]

theorem record_insert_null (hlabel : (key, .label) ∉ readings cls) :
    record nested cls (Ordered.insert members key .null) =
      record nested cls (Ordered.erase members key) := by
  apply record_congr
  rintro ⟨name, reading⟩ hentry
  rw [Ordered.get?_insert, Ordered.get?_erase]
  split_ifs with hname
  · subst hname
    exact value_null fun hreading => hlabel (hreading ▸ hentry)
  · rfl

/-! ## Documents -/

theorem statusCategory_insert_null :
    statusCategory (.object (Ordered.insert members key .null)) =
      statusCategory (.object (Ordered.erase members key)) :=
  record_insert_null (by simp [label_mem_readings])

theorem build_insert_null (hlabel : (key, .label) ∉ readings cls) :
    build cls (.object (Ordered.insert members key .null)) =
      build cls (.object (Ordered.erase members key)) := by
  unfold build
  split_ifs
  · exact statusCategory_insert_null
  · exact record_insert_null hlabel

theorem build_issueStatus_congr {j j' : Json} (h : statusCategory j = statusCategory j') :
    build .issueStatus (.object (Ordered.insert members "statusCategory" j)) =
      build .issueStatus (.object (Ordered.insert members "statusCategory" j')) := by
  have hcategory : ∀ entry ∈ readings .issueStatus,
      entry.1 = "statusCategory" → entry.2 = .category := by decide
  refine record_congr fun entry hentry => ?_
  rw [Ordered.get?_insert, Ordered.get?_insert]
  split_ifs with hname
  · rw [hcategory entry hentry hname]
    exact h
  · rfl

theorem build_label (hcls : cls = .issueLinkType ∨ cls = .field) (members : Members) :
    ∃ v, build cls (.object members) = .ok v ∧
      v.property "id" = .ok (.text (((Ordered.get? members "id").map Json.display).getD [])) := by
  rcases hcls with rfl | rfl <;> exact ⟨_, rfl, rfl⟩

theorem labels_of_null (hcls : cls = .issueLinkType ∨ cls = .field) (members : Members) :
    ∃ v v', build cls (.object (Ordered.insert members "id" .null)) = .ok v ∧
      build cls (.object (Ordered.erase members "id")) = .ok v' ∧
      v.property "id" = .ok (.text "None") ∧ v'.property "id" = .ok (.text []) := by
  obtain ⟨v, hv, hlabel⟩ := build_label hcls (Ordered.insert members "id" .null)
  obtain ⟨v', hv', hlabel'⟩ := build_label hcls (Ordered.erase members "id")
  rw [Ordered.get?_insert, if_pos rfl] at hlabel
  rw [Ordered.get?_erase, if_pos rfl] at hlabel'
  exact ⟨v, v', hv, hv', hlabel, hlabel'⟩

/-- **Null members.** With a member that is null and without it the same record is built, or both
fail alike, exactly if the member is not the label of a link type or a field. There both records are
built, one with the label "None" and one with an empty label. Inside the category of a status no
member makes a difference. -/
theorem null_absent_iff (cls : RecordClass) (members inner : Members) (key : Text) :
    (build cls (.object (Ordered.insert members key .null)) =
        build cls (.object (Ordered.erase members key)) ↔
      ¬(key = "id" ∧ (cls = .issueLinkType ∨ cls = .field))) ∧
    (cls = .issueLinkType ∨ cls = .field →
      ∃ v v', build cls (.object (Ordered.insert members "id" .null)) = .ok v ∧
        build cls (.object (Ordered.erase members "id")) = .ok v' ∧
        v.property "id" = .ok (.text "None") ∧ v'.property "id" = .ok (.text [])) ∧
    build .issueStatus (.object (Ordered.insert members "statusCategory"
        (.object (Ordered.insert inner key .null)))) =
      build .issueStatus (.object (Ordered.insert members "statusCategory"
        (.object (Ordered.erase inner key)))) := by
  refine ⟨⟨?_, fun hother => build_insert_null (label_mem_readings.not.mpr hother)⟩,
    fun hcls => labels_of_null hcls members, build_issueStatus_congr statusCategory_insert_null⟩
  rintro hsame ⟨rfl, hcls⟩
  obtain ⟨v, v', hv, hv', hlabel, hlabel'⟩ := labels_of_null hcls members
  rw [hv, hv'] at hsame
  obtain rfl := Except.ok.inj hsame
  rw [hlabel] at hlabel'
  have hshown : ("None" : Text) ≠ [] := by decide
  exact hshown (Value.text.inj (Except.ok.inj hlabel'))

theorem null_id_shown :
    ∃ v v', build .field (.object [("id", .null)]) = .ok v ∧
      build .field (.object []) = .ok v' ∧
      v.property "id" = .ok (.text "None") ∧ v'.property "id" = .ok (.text []) :=
  (null_absent_iff .field [] [] "id").2.1 (.inr rfl)

end Payload

end CatalogCache

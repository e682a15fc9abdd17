import CatalogCache.Proofs.RealText
import CatalogCache.Proofs.WrittenValues

/-!
# Outlines

The outline of a value whose reals are numbers of the format is a document that can be printed, and
a document that can be printed is the outline of itself. The reals of a document that was read are
numbers of the format.
-/

namespace CatalogCache

/-! ## Drafts without faults -/

namespace Draft

theorem items_eq_ok_iff {drafts : List Draft} {js : List Json} :
    items drafts = .ok js ↔ drafts = js.map .ok := by
  induction drafts generalizing js with
  | nil => cases js <;> simp [items]
  | cons draft rest ih =>
    rw [items, Result.bind_eq_ok_iff]
    simp only [Result.bind_eq_ok_iff, ih, Result.pure_eq, Except.ok.injEq]
    constructor
    · rintro ⟨j, rfl, js, rfl, rfl⟩
      rfl
    · intro h
      obtain ⟨j, js, rfl, rfl, rfl⟩ := List.map_eq_cons_iff.mp h.symm
      exact ⟨j, rfl, js, rfl, rfl⟩

theorem members_eq_ok_iff {drafts : List (Text × Draft)} {ms : Members} :
    members drafts = .ok ms ↔ drafts = ms.map fun m => (m.1, .ok m.2) := by
  induction drafts generalizing ms with
  | nil => cases ms <;> simp [members]
  | cons draft rest ih =>
    obtain ⟨key, draft⟩ := draft
    rw [members, Result.bind_eq_ok_iff]
    simp only [Result.bind_eq_ok_iff, ih, Result.pure_eq, Except.ok.injEq]
    constructor
    · rintro ⟨j, rfl, ms, rfl, rfl⟩
      rfl
    · intro h
      obtain ⟨⟨key, j⟩, ms, rfl, hm, rfl⟩ := List.map_eq_cons_iff.mp h.symm
      cases hm
      exact ⟨j, rfl, ms, rfl, rfl⟩

end Draft

/-! ## From values to documents -/

namespace Json

theorem itemsFit_iff {depth : Nat} {items : List Json} :
    ItemsFit depth items ↔ ∀ j ∈ items, j.Fits depth := by
  induction items with
  | nil => simp [ItemsFit]
  | cons j items ih => rw [ItemsFit, ih, List.forall_mem_cons]

theorem membersFit_iff {depth : Nat} {members : Members} :
    MembersFit depth members ↔ ∀ m ∈ members, m.2.Fits depth := by
  induction members with
  | nil => simp [MembersFit]
  | cons m members ih => rw [MembersFit, ih, List.forall_mem_cons]

end Json

/-- What is drafted fits. -/
def Draft.Fits (depth : Nat) (draft : Draft) : Prop := ∀ j, draft = .ok j → j.Fits depth

theorem Draft.fits_list {depth : Nat} {drafts : List Draft} {j : Json} (hdepth : depth ≠ 0)
    (h : ∀ draft ∈ drafts, draft.Fits (depth - 1)) (hj : (items drafts).map .list = .ok j) :
    j.Fits depth := by
  obtain ⟨js, hjs, rfl⟩ := Result.map_eq_ok_iff.mp hj
  rw [items_eq_ok_iff] at hjs
  subst hjs
  refine ⟨Nat.pos_of_ne_zero hdepth, Json.itemsFit_iff.mpr fun j hj => ?_⟩
  exact h _ (List.mem_map_of_mem hj) j rfl

theorem Draft.fits_object {depth : Nat} {drafts : List (Text × Draft)} {j : Json}
    (hdepth : depth ≠ 0) (hnames : (drafts.map (·.1)).Nodup)
    (h : ∀ entry ∈ drafts, entry.2.Fits (depth - 1)) (hj : (members drafts).map .object = .ok j) :
    j.Fits depth := by
  obtain ⟨ms, hms, rfl⟩ := Result.map_eq_ok_iff.mp hj
  rw [members_eq_ok_iff] at hms
  subst hms
  rw [List.map_map] at hnames
  refine ⟨Nat.pos_of_ne_zero hdepth, hnames, Json.membersFit_iff.mpr fun m hm => ?_⟩
  exact h _ (List.mem_map_of_mem hm) m.2 rfl

theorem Ordered.nodup_zip {α : Type} {keys : List Text} (h : keys.Nodup) (values : List α) :
    ((keys.zip values).map (·.1)).Nodup := by
  have hsublist : List.Sublist ((keys.zip values).map (·.1)) keys := by
    clear h
    induction keys generalizing values with
    | nil => exact .slnil
    | cons key keys ih =>
      cases values with
      | nil => exact List.nil_sublist _
      | cons value values => exact (ih values).cons_cons key
  exact hsublist.nodup h

namespace Value

mutual

/-- The reals in the value are numbers of the format. -/
def IsValid : Value → Prop
  | real x => x.IsValid
  | list items | tuple items => ItemsValid items
  | dict entries => EntriesValid entries
  | record _ fields => ItemsValid fields
  | _ => True

def ItemsValid : List Value → Prop
  | [] => True
  | item :: rest => item.IsValid ∧ ItemsValid rest

def EntriesValid : List (Value × Value) → Prop
  | [] => True
  | (_, item) :: rest => item.IsValid ∧ EntriesValid rest

end

mutual

theorem fits_of_outline : ∀ (v : Value) {depth : Nat} {draft : Draft}, v.IsValid →
    v.outline depth = .ok draft → draft.Fits depth
  | null, _, _, _, h => by cases h; rintro _ ⟨⟩; trivial
  | bool b, _, _, _, h => by cases h; rintro _ ⟨⟩; trivial
  | text t, _, _, _, h => by cases h; rintro _ ⟨⟩; trivial
  | real x, _, _, hv, h => by cases h; rintro _ ⟨⟩; exact Json.realReads_of_valid hv
  | int i, _, _, _, h => by
    cases h
    intro j hj
    split at hj <;> cases hj
    assumption
  | list items, depth, draft, hv, h | tuple items, depth, draft, hv, h => by
    rw [outline] at h
    split at h
    · cases h
    next hdepth =>
    obtain ⟨drafts, hdrafts, h⟩ := Result.bind_eq_ok_iff.mp h
    cases h
    exact fun j => Draft.fits_list hdepth (fits_of_outlineItems items hv hdrafts)
  | dict entries, depth, draft, hv, h => by
    rw [outline] at h
    split at h
    · cases h
    next hdepth =>
    obtain ⟨drafts, hdrafts, h⟩ := Result.bind_eq_ok_iff.mp h
    cases h
    have hall := fits_of_outlineEntries entries hv hdrafts
    exact fun j => Draft.fits_object hdepth (Ordered.nodup_ofList drafts)
      fun entry hentry => hall entry (Ordered.mem_ofList hentry)
  | record cls fields, depth, draft, hv, h => by
    rw [outline] at h
    split at h
    · cases h
    next hdepth =>
    obtain ⟨drafts, hdrafts, h⟩ := Result.bind_eq_ok_iff.mp h
    cases h
    have hall := fits_of_outlineItems fields hv hdrafts
    exact fun j => Draft.fits_object hdepth (Ordered.nodup_zip cls.nodup_keys drafts)
      fun entry hentry => hall entry.2 (List.of_mem_zip hentry).2
  | bytes _, _, _, _, h => by cases h; rintro _ ⟨⟩
  | duration _, _, _, _, h => by cases h; rintro _ ⟨⟩
  | catalog _, _, _, _, h => by cases h; rintro _ ⟨⟩
  | recordClass _, _, _, _, h => by cases h; rintro _ ⟨⟩
  | bare, _, _, _, h => by cases h; rintro _ ⟨⟩
  | set _, _, _, _, h => by cases h; rintro _ ⟨⟩

theorem fits_of_outlineItems : ∀ (items : List Value) {depth : Nat} {drafts : List Draft},
    ItemsValid items → outlineItems depth items = .ok drafts → ∀ draft ∈ drafts, draft.Fits depth
  | [], _, _, _, h => by cases h; simp
  | item :: rest, depth, drafts, hv, h => by
    rw [outlineItems] at h
    obtain ⟨draft, hdraft, h⟩ := Result.bind_eq_ok_iff.mp h
    obtain ⟨more, hmore, h⟩ := Result.bind_eq_ok_iff.mp h
    cases h
    exact List.forall_mem_cons.mpr
      ⟨fits_of_outline item hv.1 hdraft, fits_of_outlineItems rest hv.2 hmore⟩

theorem fits_of_outlineEntries : ∀ (entries : List (Value × Value)) {depth : Nat}
    {drafts : List (Text × Draft)}, EntriesValid entries →
    outlineEntries depth entries = .ok drafts → ∀ entry ∈ drafts, entry.2.Fits depth
  | [], _, _, _, h => by cases h; simp
  | (key, item) :: rest, depth, drafts, hv, h => by
    rw [outlineEntries] at h
    obtain ⟨name, -, h⟩ := Result.bind_eq_ok_iff.mp h
    obtain ⟨draft, hdraft, h⟩ := Result.bind_eq_ok_iff.mp h
    obtain ⟨more, hmore, h⟩ := Result.bind_eq_ok_iff.mp h
    cases h
    exact List.forall_mem_cons.mpr
      ⟨fits_of_outline item hv.1 hdraft, fits_of_outlineEntries rest hv.2 hmore⟩

end

/-! ## From documents to values and back -/

mutual

theorem outline_ofJson : ∀ (j : Json) {depth : Nat}, j.Fits depth →
    (ofJson j).outline depth = .ok (.ok j)
  | .null, _, _ | .bool _, _, _ | .real _, _, _ | .text _, _, _ => rfl
  | .int i, _, h => by
    have hshort : (Integer.text? i).isSome = true := h
    rw [ofJson, outline, if_pos hshort]
  | .list items, depth, h => by
    rw [ofJson, outline, if_neg h.1.ne', outlineItems_ofJson items h.2, Result.bind_ok,
      Draft.items_eq_ok_iff.mpr rfl]
    rfl
  | .object members, depth, h => by
    have hnames : ((members.map fun m => (m.1, (.ok m.2 : Draft))).map (·.1)).Nodup := by
      rw [List.map_map]
      exact h.2.1
    rw [ofJson, outline, if_neg h.1.ne', outlineEntries_ofJson members h.2.2, Result.bind_ok,
      Ordered.ofList_of_nodup hnames, Draft.members_eq_ok_iff.mpr rfl]
    rfl

theorem outlineItems_ofJson : ∀ (items : List Json) {depth : Nat}, Json.ItemsFit depth items →
    outlineItems depth (ofJsonItems items) = .ok (items.map .ok)
  | [], _, _ => rfl
  | j :: rest, depth, h => by
    rw [ofJsonItems, outlineItems, outline_ofJson j h.1, outlineItems_ofJson rest h.2]
    rfl

theorem outlineEntries_ofJson : ∀ (members : Members) {depth : Nat},
    Json.MembersFit depth members → outlineEntries depth (ofJsonMembers members) =
      .ok (members.map fun m => (m.1, .ok m.2))
  | [], _, _ => rfl
  | (name, j) :: rest, depth, h => by
    rw [ofJsonMembers, outlineEntries, outline_ofJson j h.1, outlineEntries_ofJson rest h.2]
    rfl

end

end Value

/-! ## Documents that were read -/

/-- The reals in the document are numbers of the format. -/
def Json.IsValid (j : Json) : Prop := (Value.ofJson j).IsValid

namespace Json

theorem IsScalar.valid {j : Json} (h : j.IsScalar) : j.IsValid := by
  cases h with
  | named hentry =>
    simp only [names, List.mem_cons, List.not_mem_nil, or_false] at hentry
    rcases hentry with rfl | rfl | rfl | rfl | rfl | rfl <;> trivial
  | int | text => trivial
  | real n negative => exact Binary64.ofDecimal_valid negative _ _

end Json

end CatalogCache

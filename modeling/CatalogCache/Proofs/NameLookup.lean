import CatalogCache.Lookup
import CatalogCache.Proofs.CacheFiles
import CatalogCache.Proofs.ItemAgreement
import CatalogCache.Proofs.LowerCase

/-!
# Lookup by an entry's own name

The name that is looked up is stripped of the blanks around it, but the names of the entries are
not. An entry is found by its own name only through an entry without blanks around its name.
-/

namespace CatalogCache

/-! ## Names -/

namespace Value

/-- The value has a name, which is a text or null. -/
def IsNamed (v : Value) : Prop := ∃ name, v.property "name" = .ok name ∧
  Inhabits name (.optional .text)

/-- The name as a text. Null is no name. -/
def nameText (v : Value) : Text :=
  match v.property "name" with
  | .ok (.text t) => t
  | _ => []

/-- Both names are one and the same, without regard to case and to blanks around them. -/
def SameName (u v : Value) : Prop := u.nameText.strip.lower = v.nameText.strip.lower

/-- The name is the one that is asked for, without regard to case and to blanks around the query. -/
def Matches (v : Value) (query : Text) : Prop := v.nameText.lower = query.strip.lower

end Value

theorem Inhabits.property {cls : RecordClass} {v : Value} (h : Inhabits v (.record cls))
    {p : Property} (hp : p ∈ cls.properties) :
    ∃ w, v.property p.name = .ok w ∧ Inhabits w p.shape := by
  obtain ⟨fields, rfl, hfields⟩ := h.fields
  have hlength : cls.propertyNames.length = fields.length := by
    simpa [RecordClass.propertyNames] using hfields.length_eq
  have hnames := List.forall₂_map_left_iff.mp (property_record cls hlength)
  rw [List.forall₂_map_left_iff] at hfields
  obtain ⟨i, hi, rfl⟩ := List.mem_iff_getElem.mp hp
  rw [List.forall₂_iff_get] at hnames hfields
  exact ⟨fields[i], hnames.2 i hi (hnames.1 ▸ hi), hfields.2 i hi (hfields.1 ▸ hi)⟩

theorem Catalog.isNamed (c : Catalog) {v : Value} (h : Inhabits v (.record c.entryClass)) :
    v.IsNamed := by
  have hname : .required "name" .text ∈ c.entryClass.properties := by
    cases c <;> simp [Catalog.entryClass, RecordClass.properties]
  obtain ⟨name, hproperty, htext⟩ := h.property hname
  exact ⟨name, hproperty, .optional htext⟩

namespace Lookup

variable {c : Catalog} {u v : Value} {wanted : Text} {vs : List Value} {i : Nat}

theorem key_eq (h : v.IsNamed) : key v = .ok (.text v.nameText.lower) := by
  obtain ⟨name, hname, hinhabits⟩ := h
  rw [key, Value.nameText, hname, Result.bind_ok]
  cases hinhabits with
  | null => rfl
  | optional htext =>
    cases htext with
    | text t => cases t <;> rfl

/-! ## The first match -/

/-- The first value with a property stands at an index. -/
structure FirstAt (p : Value → Prop) (vs : List Value) (i : Nat) (v : Value) : Prop where
  there : vs[i]? = some v
  holds : p v
  first : ∀ j < i, ∀ u, vs[j]? = some u → ¬p u

variable {p : Value → Prop}

theorem firstAt_cons_of_pos (h : p v) : FirstAt p (v :: vs) i u ↔ i = 0 ∧ u = v := by
  constructor
  · intro hfirst
    cases i with
    | zero => exact ⟨rfl, (Option.some.inj hfirst.there).symm⟩
    | succ i => exact absurd h (hfirst.first 0 i.succ_pos v rfl)
  · rintro ⟨rfl, rfl⟩
    exact ⟨rfl, h, nofun⟩

theorem firstAt_cons_of_neg (h : ¬p v) :
    FirstAt p (v :: vs) i u ↔ ∃ j, i = j + 1 ∧ FirstAt p vs j u := by
  constructor
  · rintro ⟨hthere, hholds, hfirst⟩
    cases i with
    | zero => exact absurd (Option.some.inj hthere ▸ hholds) h
    | succ i =>
      exact ⟨i, rfl, hthere, hholds, fun j hj => hfirst (j + 1) (Nat.succ_lt_succ hj)⟩
  · rintro ⟨j, rfl, hthere, hholds, hfirst⟩
    refine ⟨hthere, hholds, fun k hk w hw => ?_⟩
    cases k with
    | zero => exact Option.some.inj hw ▸ h
    | succ k => exact hfirst k (Nat.lt_of_succ_lt_succ hk) w hw

theorem exists_firstAt (hv : v ∈ vs) (h : p v) : ∃ i u, FirstAt p vs i u := by
  induction vs with
  | nil => cases hv
  | cons w vs ih =>
    by_cases hw : p w
    · exact ⟨0, w, (firstAt_cons_of_pos hw).mpr ⟨rfl, rfl⟩⟩
    · have hmem : v ∈ vs := (List.mem_cons.mp hv).resolve_left fun hvw => hw (hvw ▸ h)
      obtain ⟨i, u, hfirst⟩ := ih hmem
      exact ⟨i + 1, u, (firstAt_cons_of_neg hw).mpr ⟨i, rfl, hfirst⟩⟩

theorem FirstAt.mem (h : FirstAt p vs i v) : v ∈ vs := List.mem_of_getElem? h.there

theorem first?_cons (hv : v.IsNamed) (start : Nat) : first? (.text wanted) start (v :: vs) =
    if v.nameText.lower = wanted then .ok (some (start, v))
    else first? (.text wanted) (start + 1) vs := by
  rw [first?, key_eq hv, Result.bind_ok]
  simp only [Value.equal, decide_eq_true_eq]
  rfl

theorem first?_spec (wanted : Text) (hvs : ∀ v ∈ vs, v.IsNamed) (start : Nat) :
    (∃ i v, first? (.text wanted) start vs = .ok (some (start + i, v)) ∧
      FirstAt (fun u => u.nameText.lower = wanted) vs i v) ∨
    (first? (.text wanted) start vs = .ok none ∧ ∀ u ∈ vs, u.nameText.lower ≠ wanted) := by
  induction vs generalizing start with
  | nil => exact .inr ⟨rfl, nofun⟩
  | cons v vs ih =>
    rw [List.forall_mem_cons] at hvs
    rw [first?_cons hvs.1]
    split_ifs with hname
    · exact .inl ⟨0, v, rfl, (firstAt_cons_of_pos hname).mpr ⟨rfl, rfl⟩⟩
    · obtain ⟨i, u, hfound, hfirst⟩ | ⟨hnone, hall⟩ := ih hvs.2 (start + 1)
      · refine .inl ⟨i + 1, u, ?_, (firstAt_cons_of_neg hname).mpr ⟨i, rfl, hfirst⟩⟩
        rw [hfound, Nat.add_right_comm, Nat.add_assoc]
      · exact .inr ⟨hnone, List.forall_mem_cons.mpr ⟨hname, hall⟩⟩

theorem find_spec (c : Catalog) {a : Answer} (hvs : ∀ v ∈ vs, v.IsNamed)
    (hitems : a.items? = .ok ⟨vs, none⟩) (query : Text) :
    (∃ i y, find c a (.text query) = .ok (i, y) ∧ FirstAt (·.Matches query) vs i y) ∨
    (find c a (.text query) = .error (.noSuchEntry (some c) (.text query)) ∧
      ∀ u ∈ vs, ¬u.Matches query) := by
  have hquery : Lookup.query (.text query) = .ok (.text query.strip.lower) := rfl
  rw [find, hquery, Result.bind_ok, hitems, Result.bind_ok]
  obtain ⟨i, y, hfound, hfirst⟩ | ⟨hnone, hall⟩ := first?_spec query.strip.lower hvs 0
  · refine .inl ⟨i, y, ?_, hfirst⟩
    rw [hfound, Nat.zero_add]
    rfl
  · refine .inr ⟨?_, hall⟩
    rw [hnone]
    rfl

theorem FirstAt.of_imp {q : Value → Prop} (h : FirstAt p vs i v) (hv : q v)
    (himp : ∀ u, q u → p u) : FirstAt q vs i v :=
  ⟨h.there, hv, fun j hj u hu hqu => h.first j hj u hu (himp u hqu)⟩

theorem FirstAt.unique {j : Nat} (h : FirstAt p vs i v) (h' : FirstAt p vs j u) : v = u := by
  have hij : i = j := by
    rcases Nat.lt_trichotomy i j with hlt | heq | hgt
    · exact absurd h.holds (h'.first i hlt v h.there)
    · exact heq
    · exact absurd h'.holds (h.first j hgt u h'.there)
  subst hij
  exact Option.some.inj (h.there.symm.trans h'.there)

/-! ## One's own name -/

theorem matches_nameText_iff : u.Matches v.nameText ↔ u.SameName v ∧ u.nameText.IsTidy := by
  unfold Value.Matches
  constructor
  · intro h
    have htidy : u.nameText.IsTidy := by
      rw [← Text.isTidy_lower, h, Text.isTidy_lower]
      exact Text.isTidy_strip _
    exact ⟨by rw [Value.SameName, htidy, h], htidy⟩
  · rintro ⟨hsame, htidy⟩
    rw [← hsame, htidy]

section Outcome

variable {a : Answer} (hvs : ∀ v ∈ vs, v.IsNamed) (hitems : a.items? = .ok ⟨vs, none⟩)

include hvs hitems

theorem find_query_eq_ok_iff {query : Text} {y : Value} :
    (find c a (.text query)).map (·.2) = .ok y ↔ ∃ i, FirstAt (·.Matches query) vs i y := by
  obtain ⟨i, z, hfound, hfirst⟩ | ⟨hnone, hall⟩ := find_spec c hvs hitems query
  · rw [hfound, Result.exceptMap_ok, Except.ok.injEq]
    constructor
    · rintro rfl
      exact ⟨i, hfirst⟩
    · rintro ⟨j, hfirst'⟩
      exact hfirst.unique hfirst'
  · rw [hnone, Result.exceptMap_error]
    refine iff_of_false nofun ?_
    rintro ⟨i, hfirst⟩
    exact hall y hfirst.mem hfirst.holds

theorem find_query_eq_error_iff {query : Text} {e : Failure} :
    (find c a (.text query)).map (·.2) = .error e ↔
      e = .noSuchEntry (some c) (.text query) ∧ ∀ u ∈ vs, ¬u.Matches query := by
  obtain ⟨i, z, hfound, hfirst⟩ | ⟨hnone, hall⟩ := find_spec c hvs hitems query
  · rw [hfound, Result.exceptMap_ok]
    refine iff_of_false nofun ?_
    rintro ⟨-, hall⟩
    exact hall z hfirst.mem hfirst.holds
  · rw [hnone, Result.exceptMap_error, Except.error.injEq]
    constructor
    · rintro rfl
      exact ⟨rfl, hall⟩
    · rintro ⟨rfl, -⟩
      rfl

theorem find_eq_ok_iff {y : Value} :
    (find c a (.text v.nameText)).map (·.2) = .ok y ↔
      ∃ i, FirstAt (fun u => u.SameName v ∧ u.nameText.IsTidy) vs i y := by
  rw [find_query_eq_ok_iff hvs hitems]
  simp only [matches_nameText_iff]

theorem find_eq_error_iff {e : Failure} :
    (find c a (.text v.nameText)).map (·.2) = .error e ↔
      e = .noSuchEntry (some c) (.text v.nameText) ∧
        ∀ u ∈ vs, u.SameName v → ¬u.nameText.IsTidy := by
  rw [find_query_eq_error_iff hvs hitems]
  simp only [matches_nameText_iff, not_and]

end Outcome

end Lookup

theorem Client.find_result (client : Client) (c : Catalog) (name : Value) {w : World} {a : Answer}
    (hreply : ((client.answer (.collection c)).exec w).1 = .ok a) :
    ((client.find c name).exec w).1 = (Lookup.find c a name).map (·.2) := by
  rw [Client.find, Action.exec_bind_ok (Prod.ext hreply rfl)]
  cases hfind : Lookup.find c a name with
  | ok found =>
    rw [Action.exec_bind_ok (Action.exec_ofExcept _ _)]
    rfl
  | error e =>
    rw [Action.exec_bind_error (Action.exec_ofExcept _ _)]
    rfl

open Lookup in
/-- **Own names.** The first entry with the name of an entry is found by that name exactly if no
blanks stand around its own name. Else the first one is found that has none, if there is any. -/
theorem own_name_found_iff (client : Client) (c : Catalog) {w : World} {a : Answer}
    {entries : List Value} (hreply : ((client.answer (.collection c)).exec w).1 = .ok a)
    (hitems : a.items? = .ok ⟨entries, none⟩) (hentries : c.Entries entries) {x : Value}
    (hx : x ∈ entries) :
    (∃ i y, FirstAt (fun u => u.SameName x) entries i y ∧
      (((client.find c (.text x.nameText)).exec w).1 = .ok y ↔ y.nameText.IsTidy)) ∧
    (∀ y, ((client.find c (.text x.nameText)).exec w).1 = .ok y ↔
      ∃ i, FirstAt (fun u => u.SameName x ∧ u.nameText.IsTidy) entries i y) ∧
    ∀ e, ((client.find c (.text x.nameText)).exec w).1 = .error e ↔
      e = .noSuchEntry (some c) (.text x.nameText) ∧
        ∀ u ∈ entries, u.SameName x → ¬u.nameText.IsTidy := by
  have hnamed : ∀ v ∈ entries, v.IsNamed := fun v hv => c.isNamed (hentries v hv)
  rw [client.find_result c _ hreply]
  refine ⟨?_, fun y => find_eq_ok_iff hnamed hitems, fun e => find_eq_error_iff hnamed hitems⟩
  obtain ⟨i, y, hfirst⟩ := exists_firstAt (p := fun u => u.SameName x) hx rfl
  refine ⟨i, y, hfirst, ?_⟩
  rw [find_eq_ok_iff hnamed hitems]
  constructor
  · rintro ⟨j, htidy⟩
    exact htidy.holds.2
  · intro htidy
    exact ⟨i, hfirst.of_imp ⟨hfirst.holds, htidy⟩ fun _ => And.left⟩

/-- A priority with blanks around its name. -/
def paddedPriority : Value :=
  .record .priority [.text "/1", .int 1, .text " High ", .null, .null, .null]

theorem padded_not_found :
    (((Client.remote "jira").find .priorities (.text paddedPriority.nameText)).exec
      (Cached.sampleWorld fun _ => [paddedPriority])).1 =
        .error (.noSuchEntry (some .priorities) (.text " High ")) := by
  have hentries : Catalog.priorities.Entries [paddedPriority] := by
    refine List.forall_mem_singleton.mpr (Stored.inhabits_record ?_)
    exact .cons (.text _) (.cons (.optional (.int 1)) (.cons (.text _)
      (.cons (.null _) (.cons (.null _) (.cons (.null _) .nil)))))
  have hfails := (own_name_found_iff (.remote "jira") .priorities
    (w := Cached.sampleWorld fun _ => [paddedPriority]) (a := .value (.list [paddedPriority]))
    rfl rfl hentries List.mem_cons_self).2.2
  refine (hfails _).mpr ⟨rfl, List.forall_mem_singleton.mpr fun _ => ?_⟩
  decide

end CatalogCache

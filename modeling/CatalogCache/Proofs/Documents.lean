import CatalogCache.Json.Reader

/-!
# Documents

What the reader makes of a text is put together from tokens, so it has each property that tokens
have and that containers take over. One is that no object repeats a name: a member that comes again
takes the place of the one before.
-/

namespace CatalogCache

/-! ## Names in an object -/

namespace Ordered

variable {α : Type} {entries : Ordered α} {name : Text} {value : α}

theorem mem_of_get? (h : entries.get? name = some value) : (name, value) ∈ entries := by
  obtain ⟨entry, hfind, rfl⟩ := Option.map_eq_some_iff.mp h
  obtain rfl : entry.1 = name := by simpa using List.find?_some hfind
  exact List.mem_of_find?_eq_some hfind

theorem get?_of_not_mem (h : name ∉ entries.map (·.1)) : entries.get? name = none := by
  cases hget : entries.get? name with
  | none => rfl
  | some value => exact absurd (List.mem_map_of_mem (mem_of_get? hget)) h

theorem exists_get?_of_mem (h : name ∈ entries.map (·.1)) :
    ∃ value, entries.get? name = some value := by
  obtain ⟨entry, hentry, rfl⟩ := List.mem_map.mp h
  unfold get?
  cases hfind : entries.find? (·.1 = entry.1) with
  | none => simpa using List.find?_eq_none.mp hfind entry hentry
  | some found => exact ⟨found.2, rfl⟩

theorem mem_insert {entry : Text × α} (h : entry ∈ entries.insert name value) :
    entry = (name, value) ∨ entry ∈ entries := by
  induction entries with
  | nil => exact .inl (List.mem_singleton.mp h)
  | cons first rest ih =>
    unfold insert at h
    split at h
    · rcases List.mem_cons.mp h with h | h
      · exact .inl h
      · exact .inr (List.mem_cons_of_mem _ h)
    · rcases List.mem_cons.mp h with rfl | h
      · exact .inr List.mem_cons_self
      · exact (ih h).imp_right (List.mem_cons_of_mem _)

theorem nodup_insert (h : (entries.map (·.1)).Nodup) :
    ((entries.insert name value).map (·.1)).Nodup := by
  induction entries with
  | nil => simp [insert]
  | cons first rest ih =>
    rw [List.map_cons, List.nodup_cons] at h
    unfold insert
    split
    next hname =>
      subst hname
      exact List.nodup_cons.mpr h
    next hname =>
      apply List.nodup_cons.mpr
      refine ⟨?_, ih h.2⟩
      intro hmem
      obtain ⟨entry, hentry, hsame⟩ := List.mem_map.mp hmem
      rcases mem_insert hentry with rfl | hentry
      · exact hname hsame.symm
      · exact h.1 (List.mem_map.mpr ⟨entry, hentry, hsame⟩)

theorem insert_of_not_mem (h : name ∉ entries.map (·.1)) (value : α) :
    entries.insert name value = entries ++ [(name, value)] := by
  induction entries with
  | nil => rfl
  | cons entry rest ih =>
    rw [List.map_cons, List.mem_cons, not_or] at h
    rw [insert, if_neg (fun e => h.1 e.symm), ih h.2]
    rfl

theorem mem_ofList {entries : List (Text × α)} {entry : Text × α} (h : entry ∈ ofList entries) :
    entry ∈ entries := by
  have hfold : ∀ (entries : List (Text × α)) (map : Ordered α),
      entry ∈ entries.foldl (fun map entry => insert map entry.1 entry.2) map →
        entry ∈ map ∨ entry ∈ entries := by
    intro entries
    induction entries with
    | nil => exact fun _ h => .inl h
    | cons first rest ih =>
      intro map h
      rcases ih _ h with h | h
      · rcases mem_insert h with rfl | h
        · exact .inr List.mem_cons_self
        · exact .inl h
      · exact .inr (List.mem_cons_of_mem _ h)
  exact (hfold entries [] h).resolve_left List.not_mem_nil

theorem nodup_ofList (entries : List (Text × α)) : ((ofList entries).map (·.1)).Nodup := by
  have hfold : ∀ (entries : List (Text × α)) (map : Ordered α), (map.map (·.1)).Nodup →
      ((entries.foldl (fun map entry => insert map entry.1 entry.2) map).map (·.1)).Nodup := by
    intro entries
    induction entries with
    | nil => exact fun _ h => h
    | cons first rest ih => exact fun map h => ih _ (nodup_insert h)
  exact hfold entries [] List.nodup_nil

theorem ofList_of_nodup {entries : List (Text × α)} (h : (entries.map (·.1)).Nodup) :
    ofList entries = entries := by
  have hfold : ∀ (entries : List (Text × α)) (map : Ordered α),
      ((map ++ entries).map (·.1)).Nodup →
        entries.foldl (fun map entry => insert map entry.1 entry.2) map = map ++ entries := by
    intro entries
    induction entries with
    | nil => exact fun map _ => (List.append_nil map).symm
    | cons first rest ih =>
      intro map h
      have hnew : first.1 ∉ map.map (·.1) := by
        intro hmem
        rw [List.map_append, List.map_cons] at h
        exact (List.nodup_append.mp h).2.2 _ hmem _ List.mem_cons_self rfl
      rw [List.append_cons] at h ⊢
      rw [List.foldl_cons, insert_of_not_mem hnew, ih _ h]
  exact hfold entries [] h

end Ordered

namespace Json

/-- No object repeats a name, however deep it lies. -/
inductive IsDistinct : Json → Prop
  | null : IsDistinct .null
  | bool (b : Bool) : IsDistinct (.bool b)
  | int (i : Int) : IsDistinct (.int i)
  | real (x : Binary64) : IsDistinct (.real x)
  | text (t : Text) : IsDistinct (.text t)
  | list {items : List Json} (h : ∀ j ∈ items, IsDistinct j) : IsDistinct (.list items)
  | object {members : Members} (names : (members.map (·.1)).Nodup)
    (h : ∀ entry ∈ members, IsDistinct entry.2) : IsDistinct (.object members)

theorem IsDistinct.insert {members : Members} {name : Text} {j : Json}
    (h : (Json.object members).IsDistinct) (hj : j.IsDistinct) :
    (Json.object (Ordered.insert members name j)).IsDistinct := by
  cases h with
  | object names h =>
    apply object (Ordered.nodup_insert names)
    intro entry hentry
    rcases Ordered.mem_insert hentry with rfl | hentry
    · exact hj
    · exact h entry hentry

/-! ## Tokens -/

/-- What a single token may stand for. -/
inductive IsScalar : Json → Prop
  | named {entry : Text × Json} (h : entry ∈ names) : IsScalar entry.2
  | int (i : Int) : IsScalar (.int i)
  | real (n : Binary64.Numeral) (negative : Bool) : IsScalar (.real (n.value negative))
  | text (t : Text) : IsScalar (.text t)

theorem isScalar_of_scanName {t rest : Text} {j : Json}
    (h : scanName t = some (.scalar j, rest)) : j.IsScalar := by
  obtain ⟨entry, hentry, hscan⟩ := List.exists_of_findSome?_eq_some h
  obtain ⟨_, -, hj⟩ := Option.map_eq_some_iff.mp hscan
  cases hj
  exact .named hentry

theorem isScalar_of_scanUnsigned {negative : Bool} {t rest : Text} {j : Json}
    (h : scanUnsigned negative t = some (.scalar j, rest)) : j.IsScalar := by
  unfold scanUnsigned at h
  split at h
  · cases h
  split at h
  · cases h
    exact .real _ _
  split at h
  · cases h
    exact .real _ _
  · unfold integerToken at h
    split at h <;> cases h
    exact .int _

theorem isScalar_of_scanNumber {t rest : Text} {j : Json}
    (h : scanNumber t = some (.scalar j, rest)) : j.IsScalar := by
  unfold scanNumber at h
  split at h <;> exact isScalar_of_scanUnsigned h

theorem Token.isScalar_of_scan {c : CodePoint} {rest : Text} {j : Json}
    (h : (Token.scan c rest).1 = .scalar j) : j.IsScalar := by
  unfold Token.scan at h
  repeat' split at h
  all_goals try cases h
  cases hname : scanName (c :: rest) with
  | some found =>
    obtain ⟨token, after⟩ := found
    simp only [hname, Option.some_or, Option.getD_some] at h
    exact isScalar_of_scanName (h ▸ hname)
  | none =>
    cases hnumber : scanNumber (c :: rest) with
    | some found =>
      obtain ⟨token, after⟩ := found
      simp only [hname, hnumber, Option.none_or, Option.getD_some] at h
      exact isScalar_of_scanNumber (h ▸ hnumber)
    | none => simp [hname, hnumber] at h

/-! ## Reading -/

/-- What every document has that is put together from tokens. -/
structure IsGathered (P : Json → Prop) : Prop where
  scalar : ∀ {j}, IsScalar j → P j
  list : ∀ {items}, (∀ j ∈ items, P j) → P (.list items)
  empty : P (.object [])
  insert : ∀ {members name j}, P (.object members) → P j →
    P (.object (Ordered.insert members name j))

variable {P : Json → Prop}

def Frame.Holds (P : Json → Prop) : Frame → Prop
  | list items => ∀ j ∈ items, P j
  | object members _ => P (.object members)

namespace Reading

/-- All that has been read has the property. -/
def Holds (P : Json → Prop) : Reading → Prop
  | value outer | item outer | member outer => ∀ frame ∈ outer, frame.Holds P
  | name members outer | colon members _ outer | afterMember members outer =>
    P (object members) ∧ ∀ frame ∈ outer, frame.Holds P
  | afterItem items outer => (∀ j ∈ items, P j) ∧ ∀ frame ∈ outer, frame.Holds P
  | done j => P j

variable {maxDepth : Nat} {outer : List Frame} {token : Token} {here : Text} {state next : Reading}

theorem holds_close (hP : IsGathered P) {j : Json} (hj : P j)
    (houter : ∀ frame ∈ outer, frame.Holds P) : (close j outer).Holds P := by
  cases outer with
  | nil => exact hj
  | cons frame outer =>
    rw [List.forall_mem_cons] at houter
    cases frame with
    | list items => exact ⟨List.forall_mem_cons.mpr ⟨hj, houter.1⟩, houter.2⟩
    | object members key => exact ⟨hP.insert houter.1 hj, houter.2⟩

theorem holds_onValue (hP : IsGathered P) (htoken : ∀ j, token = .scalar j → P j)
    (houter : ∀ frame ∈ outer, frame.Holds P)
    (h : onValue maxDepth outer token here = .ok next) : next.Holds P := by
  unfold onValue at h
  split at h
  · split at h <;> cases h
    exact houter
  · split at h <;> cases h
    exact houter
  · cases h
    exact holds_close hP (hP.scalar (.text _)) houter
  · cases h
    exact holds_close hP (htoken _ rfl) houter
  all_goals cases h

theorem holds_onName {members : Members} (hmembers : P (object members))
    (houter : ∀ frame ∈ outer, frame.Holds P) (h : onName members outer token here = .ok next) :
    next.Holds P := by
  unfold onName at h
  split at h <;> cases h
  exact ⟨hmembers, houter⟩

theorem holds_step (hP : IsGathered P) (htoken : ∀ j, token = .scalar j → P j)
    (hstate : state.Holds P) (h : state.step maxDepth token here = .ok next) : next.Holds P := by
  unfold step at h
  split at h
  · exact holds_onValue hP htoken hstate h
  · cases h
    exact holds_close hP (hP.list (by simp)) hstate
  · have hinner : ∀ frame ∈ Frame.list [] :: _, frame.Holds P :=
      List.forall_mem_cons.mpr ⟨by simp [Frame.Holds], hstate⟩
    exact holds_onValue hP htoken hinner h
  · cases h
    exact holds_close hP hP.empty hstate
  · exact holds_onName hP.empty hstate h
  · exact holds_onName hstate.1 hstate.2 h
  · cases h
    exact List.forall_mem_cons.mpr hstate
  · cases h
  · cases h
    exact List.forall_mem_cons.mpr hstate
  · cases h
    exact holds_close hP (hP.list fun j hj => hstate.1 j (List.mem_reverse.mp hj)) hstate.2
  · cases h
  · cases h
    exact hstate
  · cases h
    exact holds_close hP hstate.1 hstate.2
  all_goals cases h

theorem holds_run (hP : IsGathered P) {t : Text} {j : Json} (hstate : state.Holds P)
    (h : state.run maxDepth t = .ok j) : P j := by
  fun_induction Reading.run maxDepth state t with
  | case1 state =>
    cases state <;> cases h
    exact hstate
  | case2 => cases h
  | case3 state t c rest hrest next hstep ih =>
    exact ih (holds_step hP (fun j hj => hP.scalar (Token.isScalar_of_scan hj)) hstate hstep) h

end Reading

theorem holds_of_read (hP : IsGathered P) {t : Text} {j : Json} (h : read t = .ok j) : P j := by
  unfold read readWithin at h
  split at h
  · cases h
  · cases hrun : Reading.run maxDepth (.value []) t with
    | error stop =>
      rw [hrun] at h
      cases h
    | ok j' =>
      rw [hrun] at h
      cases h
      have hstart : (Reading.value []).Holds P := by simp [Reading.Holds]
      exact Reading.holds_run hP hstart hrun

theorem IsScalar.distinct {j : Json} (h : j.IsScalar) : j.IsDistinct := by
  cases h with
  | named hentry =>
    simp only [names, List.mem_cons, List.not_mem_nil, or_false] at hentry
    rcases hentry with rfl | rfl | rfl | rfl | rfl | rfl <;> constructor
  | _ => constructor

theorem gathered_distinct : IsGathered IsDistinct where
  scalar := IsScalar.distinct
  list := .list
  empty := .object List.nodup_nil (by simp)
  insert := IsDistinct.insert

theorem distinct_of_read {t : Text} {j : Json} (h : read t = .ok j) : j.IsDistinct :=
  holds_of_read gathered_distinct h

end Json

/-- A document as it can be read. -/
structure Document where
  json : Json
  distinct : json.IsDistinct

/-- The document that a text is. -/
def Document.ofRead {t : Text} {j : Json} (h : Json.read t = .ok j) : Document :=
  ⟨j, Json.distinct_of_read h⟩

end CatalogCache

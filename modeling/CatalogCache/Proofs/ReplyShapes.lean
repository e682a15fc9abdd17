import CatalogCache.Proofs.RefusedReplies

/-!
# Shapes of replies

Some operations expect a list in a reply, and some an object. Where a list is expected, every other
document is refused with the failure of the site. Where an object is expected nobody looks at the
shape, and what is no object fails as soon as a member of it is asked for.
-/

namespace CatalogCache

/-! ## What operations expect -/

namespace Request

/-- Lists are expected, not single records. -/
def isListing : Request → Bool
  | collection _ | linkTypes | fields => true
  | item .. | serverInfo => false

/-- The class of the records that come back. -/
def recordClass : Request → RecordClass
  | collection c | item c _ => c.entryClass
  | linkTypes => .issueLinkType
  | fields => .field
  | serverInfo => .serverInfo

/-- The place of the resource under the address of the interface. An entry is asked for by its own
address. -/
def path : Request → Text
  | collection c => Site.catalogPath c
  | item .. => []
  | linkTypes => "/issueLinkType"
  | fields => "/field"
  | serverInfo => "/serverInfo"

/-- The key of the object that may stand around the list. -/
def wrapper? : Request → Option Text
  | linkTypes => some "issueLinkTypes"
  | _ => none

/-- The document has the shape that the operation expects. The object around a list may lack the
list, and then stands for an empty one. -/
inductive Expects : Request → Json → Prop
  | list {q : Request} (items : List Json) (h : q.isListing = true) : Expects q (.list items)
  | wrapped {q : Request} {key : Text} {members : Members} (items : List Json)
    (h : q.wrapper? = some key) (hkey : Ordered.get? members key = some (.list items)) :
    Expects q (.object members)
  | empty {q : Request} {key : Text} {members : Members} (h : q.wrapper? = some key)
    (hkey : Ordered.get? members key = none) : Expects q (.object members)
  | object {q : Request} (members : Members) (h : q.isListing = false) :
    Expects q (.object members)

variable {q : Request} {j : Json}

theorem isListing_of_wrapper {key : Text} (h : q.wrapper? = some key) : q.isListing = true := by
  cases q with
  | linkTypes => rfl
  | _ => cases h

theorem recordClass_ne (q : Request) : q.recordClass ≠ .statusCategory := by
  cases q with
  | collection c | item c => cases c <;> nofun
  | _ => nofun

theorem expects_list_iff (h : q.isListing = true) :
    Expects q j ↔ ∃ items, Site.unwrap q.wrapper? j = .list items := by
  constructor
  · intro hfits
    cases hfits with
    | list items =>
      refine ⟨items, ?_⟩
      cases q.wrapper? <;> rfl
    | wrapped items hwrapper hkey => exact ⟨items, by simp [Site.unwrap, hwrapper, hkey]⟩
    | empty hwrapper hkey => exact ⟨[], by simp [Site.unwrap, hwrapper, hkey]⟩
    | object members hone => cases h.symm.trans hone
  · rintro ⟨items, hitems⟩
    cases hwrapper : q.wrapper? with
    | none =>
      rw [hwrapper] at hitems
      obtain rfl : j = .list items := hitems
      exact .list items h
    | some key =>
      rw [hwrapper] at hitems
      cases j with
      | list inner => exact .list inner h
      | object members =>
        cases hkey : Ordered.get? members key with
        | none => exact .empty hwrapper hkey
        | some inner =>
          rw [Site.unwrap, hkey] at hitems
          obtain rfl : inner = .list items := hitems
          exact .wrapped items hwrapper hkey
      | _ => cases hitems

theorem expects_object_iff (h : q.isListing = false) :
    Expects q j ↔ ∃ members, j = .object members := by
  constructor
  · intro hfits
    cases hfits with
    | list items hlist => cases h.symm.trans hlist
    | wrapped items hwrapper | empty hwrapper =>
      cases h.symm.trans (isListing_of_wrapper hwrapper)
    | object members => exact ⟨members, rfl⟩
  · rintro ⟨members, rfl⟩
    exact .object members h

end Request

/-! ## What becomes of a document -/

namespace Site

variable {q : Request} {j : Json} {e : Failure}

theorem parse_eq (q : Request) : parse q =
    if q.isListing then records q.path (Payload.build q.recordClass) q.wrapper?
    else Payload.build q.recordClass := by
  cases q <;> rfl

theorem family_of_expected (hfits : q.Expects j) (h : parse q j = .error e) :
    e.family? = none := by
  rw [parse_eq] at h
  cases hlisting : q.isListing with
  | false =>
    rw [hlisting, if_neg Bool.false_ne_true] at h
    exact Payload.family_build h
  | true =>
    obtain ⟨items, hitems⟩ := (Request.expects_list_iff hlisting).mp hfits
    rw [hlisting, if_pos rfl, records, hitems] at h
    dsimp only at h
    cases hall : (items.filter isObject).mapM (Payload.build q.recordClass) with
    | ok vs =>
      rw [hall] at h
      cases h
    | error cause =>
      rw [hall] at h
      obtain rfl : cause = e := Except.error.inj h
      obtain ⟨item, -, hitem⟩ := Result.exists_of_mapM_error hall
      exact Payload.family_build hitem

theorem parse_unlisted (hlisting : q.isListing = true) (hfits : ¬q.Expects j) :
    parse q j = .error (.notList q.path (unwrap q.wrapper? j).typeName) := by
  rw [Request.expects_list_iff hlisting, not_exists] at hfits
  rw [parse_eq, if_pos hlisting, records]
  split
  next items hitems => exact absurd hitems (hfits items)
  next => rfl

theorem parse_nonobject (hlisting : q.isListing = false) (hfits : ¬q.Expects j) :
    parse q j = .error (.noProperty j.typeName "get") := by
  rw [Request.expects_object_iff hlisting, not_exists] at hfits
  rw [parse_eq, hlisting, if_neg Bool.false_ne_true, Payload.build, if_neg q.recordClass_ne]
  exact hfits

/-! ## Replies -/

/-- **Shapes.** A reply of status 200 is refused in the name of the site exactly if a list is
expected and the document is none. Where an object is expected, what is none ends the operation by
a failure of another kind. -/
theorem shape_refused_iff (site : Site) (q : Request) {reply : HttpReply} {j : Json} {w : World}
    (hserver : w.server w.sent (site.address q) = .ok reply) (hstatus : reply.status = 200)
    (hbody : Json.read reply.body = .ok j) :
    ((∃ e, (((Client.site site).answer q).exec w).1 = .error e ∧ e.family? = some .site) ↔
      q.isListing = true ∧ ¬q.Expects j) ∧
    (q.isListing = true → ¬q.Expects j → (((Client.site site).answer q).exec w).1 =
      .error (.notList q.path (unwrap q.wrapper? j).typeName)) ∧
    (q.isListing = false → ¬q.Expects j → (((Client.site site).answer q).exec w).1 =
      .error (.noProperty j.typeName "get")) := by
  have haccept : accept reply = .ok j := by
    have hfine : isError reply.status = false := by
      rw [hstatus]
      decide
    rw [accept_of_not_error hfine, document, hbody]
    rfl
  have hresult : (((Client.site site).answer q).exec w).1 = .value <$> parse q j := by
    rw [exec_answer, hserver, Result.bind_ok, haccept]
    rfl
  rw [hresult]
  refine ⟨⟨?_, ?_⟩, fun hlisting hfits => ?_, fun hlisting hfits => ?_⟩
  · rintro ⟨e, he, hfamily⟩
    cases hparse : parse q j with
    | ok v =>
      rw [hparse] at he
      cases he
    | error cause =>
      rw [hparse] at he
      obtain rfl : cause = e := Except.error.inj he
      have hfits : ¬q.Expects j := fun hfits => by
        cases hfamily.symm.trans (family_of_expected hfits hparse)
      refine ⟨?_, hfits⟩
      by_contra hlisting
      rw [Bool.not_eq_true] at hlisting
      rw [parse_nonobject hlisting hfits] at hparse
      obtain rfl := Except.error.inj hparse
      cases hfamily
  · rintro ⟨hlisting, hfits⟩
    rw [parse_unlisted hlisting hfits]
    exact ⟨_, rfl, rfl⟩
  · rw [parse_unlisted hlisting hfits]
    rfl
  · rw [parse_nonobject hlisting hfits]
    rfl

/-- A site that answers everything with an empty list. -/
def sampleEmptyLists : World where
  __ := Cached.sampleWorld fun _ => []
  server := fun _ _ => .ok ⟨200, "[]", []⟩

theorem list_for_serverInfo :
    (((Client.site Cached.sampleSite).answer .serverInfo).exec sampleEmptyLists).1 =
      .error (.noProperty "list" "get") ∧
    ¬∃ e, (((Client.site Cached.sampleSite).answer .serverInfo).exec sampleEmptyLists).1 =
      .error e ∧ e.family? = some .site := by
  have hread : Json.read "[]" = .ok (.list []) := by cbv
  have hfits : ¬Request.serverInfo.Expects (.list []) := by
    rintro ⟨⟩
    contradiction
  have hserver : sampleEmptyLists.server sampleEmptyLists.sent
      (Cached.sampleSite.address .serverInfo) = .ok ⟨200, "[]", []⟩ := rfl
  obtain ⟨hrefused, -, hfails⟩ :=
    shape_refused_iff Cached.sampleSite .serverInfo hserver rfl hread
  exact ⟨hfails rfl hfits, fun h => Bool.false_ne_true (hrefused.mp h).1⟩

end Site

end CatalogCache

import CatalogCache.Proofs.CachedCalls

/-!
# Values without a text

A value is gone through before any of it is written. What is met first decides how that ends: a
container that too many steps lead into makes the conversion overflow, which nobody expects, and an
integer in a key that is too long for text makes it fail as a codec does. Behind that an indent of
too many blanks fails, which nobody expects either.
-/

namespace CatalogCache

namespace Value

/-- What may stop the one who goes through a value. -/
inductive Sight
  /-- A container, with the steps up to its inside. -/
  | container (steps : Nat)
  /-- An integer that is shown in a key. -/
  | keyInteger (i : Int)

mutual

/-- What is met on the way through a value, in order, so many steps from the start. Inside a key
the steps are those that show it. -/
def sights (inKey : Bool) (steps : Nat) : Value → List Sight
  | int i => if inKey then [.keyInteger i] else []
  | list items | tuple items =>
    let inside := steps + if inKey then 1 else conversionSteps
    .container inside :: itemSights inKey inside items
  | set items =>
    if inKey then .container (steps + 2) :: itemSights inKey (steps + 2) items else []
  | record _ fields =>
    let inside := steps + if inKey then 3 else conversionSteps
    .container inside :: itemSights inKey inside fields
  | dict entries =>
    let inside := steps + if inKey then 1 else conversionSteps
    .container inside :: entrySights inKey inside entries
  | _ => []

def itemSights (inKey : Bool) (steps : Nat) : List Value → List Sight
  | [] => []
  | item :: rest => item.sights inKey steps ++ itemSights inKey steps rest

def entrySights (inKey : Bool) (steps : Nat) : List (Value × Value) → List Sight
  | [] => []
  | (key, item) :: rest =>
    key.sights true steps ++ (item.sights inKey steps ++ entrySights inKey steps rest)

end

def Sight.check (limit : Nat) : Sight → Except OutlineError Unit
  | container steps => if steps ≤ limit then .ok () else .error .depth
  | keyInteger i => if (Integer.text? i).isSome then .ok () else .error .longKey

/-! ## The way of the conversion -/

section

variable {left steps limit : Nat}

theorem check_container {cost : Nat} (h : left + steps = limit) (rest : List Sight) :
    forM (.container (steps + cost) :: rest) (Sight.check limit) =
      if left < cost then .error .depth else forM rest (Sight.check limit) := by
  rw [List.forM_cons, Sight.check]
  split_ifs <;> first | omega | rfl

theorem descend_eq {cost : Nat} {next : Nat → Except OutlineError Unit} {rest : List Sight}
    (h : left + steps = limit)
    (hnext : left - cost + (steps + cost) = limit →
      next (left - cost) = forM rest (Sight.check limit)) :
    (descend cost left >>= next) =
      forM (.container (steps + cost) :: rest) (Sight.check limit) := by
  rw [check_container h, descend]
  split_ifs with hleft
  · rfl
  · exact hnext (by omega)

end

mutual

theorem inspect_eq : ∀ (v : Value) {left steps limit : Nat}, left + steps = limit →
    inspect left v = forM (v.sights true steps) (Sight.check limit)
  | null, _, _, _, _ | bool _, _, _, _, _ | real _, _, _, _, _ | text _, _, _, _, _
  | bytes _, _, _, _, _ | duration _, _, _, _, _ | catalog _, _, _, _, _
  | recordClass _, _, _, _, _ | bare, _, _, _, _ => rfl
  | int i, _, _, limit, _ => by
    show _ = (Sight.check limit (.keyInteger i) >>= fun _ => .ok ())
    rw [inspect, Sight.check]
    split <;> rfl
  | list items, _, _, _, h | tuple items, _, _, _, h
  | set items, _, _, _, h | record _ items, _, _, _, h => by
    rw [inspect]
    exact descend_eq h fun hinside => inspectItems_eq items hinside
  | dict entries, _, _, _, h => by
    rw [inspect]
    exact descend_eq h fun hinside => inspectEntries_eq entries hinside

theorem inspectItems_eq : ∀ (items : List Value) {left steps limit : Nat}, left + steps = limit →
    inspectItems left items = forM (itemSights true steps items) (Sight.check limit)
  | [], _, _, _, _ => rfl
  | item :: rest, _, _, _, h => by
    rw [inspectItems, itemSights, List.forM_append, inspect_eq item h, inspectItems_eq rest h]

theorem inspectEntries_eq : ∀ (entries : List (Value × Value)) {left steps limit : Nat},
    left + steps = limit →
    inspectEntries left entries = forM (entrySights true steps entries) (Sight.check limit)
  | [], _, _, _, _ => rfl
  | (key, item) :: rest, _, _, _, h => by
    rw [inspectEntries, entrySights, List.forM_append, List.forM_append,
      inspect_eq key h, inspect_eq item h, inspectEntries_eq rest h]

end

/-- Whether there is a result, and else why not. -/
def ending {α : Type} (r : Except OutlineError α) : Except OutlineError Unit := r.map fun _ => ()

theorem ending_bind {α β : Type} {r : Except OutlineError α} {f : α → Except OutlineError β}
    {next : Except OutlineError Unit} (h : ∀ a, ending (f a) = next) :
    ending (r >>= f) = (ending r >>= fun _ => next) := by
  cases r with
  | error e => rfl
  | ok a => exact h a

theorem ending_return {α β : Type} (r : Except OutlineError α) (f : α → β) :
    ending (r >>= fun a => .ok (f a)) = ending r := by
  cases r <;> rfl

theorem ending_deeper {depth steps limit : Nat} {inside : Except OutlineError Draft}
    {rest : List Sight} (h : conversionSteps * depth + steps = limit)
    (hinside : conversionSteps * (depth - 1) + (steps + conversionSteps) = limit →
      ending inside = forM rest (Sight.check limit)) :
    ending (if depth = 0 then .error .depth else inside) =
      forM (.container (steps + conversionSteps) :: rest) (Sight.check limit) := by
  have hcost : conversionSteps = 2 := rfl
  have hleft : conversionSteps * depth = 2 * depth := rfl
  have hdeeper : conversionSteps * (depth - 1) = 2 * (depth - 1) := rfl
  rw [check_container h]
  by_cases hdepth : depth = 0
  · rw [if_pos hdepth, if_pos (by omega)]
    rfl
  · rw [if_neg hdepth, if_neg (by omega)]
    exact hinside (by omega)

mutual

theorem outline_eq : ∀ (v : Value) {depth steps limit : Nat},
    conversionSteps * depth + steps = limit →
    ending (v.outline depth) = forM (v.sights false steps) (Sight.check limit)
  | null, _, _, _, _ | bool _, _, _, _, _ | int _, _, _, _, _ | real _, _, _, _, _
  | text _, _, _, _, _ | bytes _, _, _, _, _ | duration _, _, _, _, _ | catalog _, _, _, _, _
  | recordClass _, _, _, _, _ | bare, _, _, _, _ | set _, _, _, _, _ => rfl
  | list items, _, _, _, h | tuple items, _, _, _, h | record _ items, _, _, _, h => by
    rw [outline]
    exact ending_deeper h fun hinside => (ending_return _ _).trans (outlineItems_eq items hinside)
  | dict entries, _, _, _, h => by
    rw [outline]
    exact ending_deeper h fun hinside =>
      (ending_return _ _).trans (outlineEntries_eq entries hinside)

theorem outlineItems_eq : ∀ (items : List Value) {depth steps limit : Nat},
    conversionSteps * depth + steps = limit →
    ending (outlineItems depth items) = forM (itemSights false steps items) (Sight.check limit)
  | [], _, _, _, _ => rfl
  | item :: rest, _, _, _, h => by
    rw [outlineItems, itemSights, List.forM_append, ← outline_eq item h,
      ← outlineItems_eq rest h]
    exact ending_bind fun draft => ending_return _ _

theorem outlineEntries_eq : ∀ (entries : List (Value × Value)) {depth steps limit : Nat},
    conversionSteps * depth + steps = limit →
    ending (outlineEntries depth entries) =
      forM (entrySights false steps entries) (Sight.check limit)
  | [], _, _, _, _ => rfl
  | (key, item) :: rest, depth, _, _, h => by
    rw [outlineEntries, entrySights, List.forM_append, List.forM_append,
      ← inspect_eq key h, ← outline_eq item h, ← outlineEntries_eq rest h]
    have hkey : inspect (conversionSteps * depth) key =
        ending (keyText (conversionSteps * depth) key) := by
      rw [keyText]
      cases inspect (conversionSteps * depth) key <;> rfl
    rw [hkey]
    exact ending_bind fun name => ending_bind fun draft => ending_return _ _

end

/-! ## What comes first -/

/-- The first thing on the way through the value that cannot be passed fails so. -/
def StopsAt (v : Value) (e : OutlineError) : Prop := ∃ before sight after,
  v.sights false 0 = before ++ sight :: after ∧
    (∀ s ∈ before, s.check maxSteps = .ok ()) ∧ sight.check maxSteps = .error e

/-- The conversion of the value overflows: the first such thing is a container that more than
`maxSteps` steps lead into. -/
def IsTooDeep (v : Value) : Prop := v.StopsAt .depth

/-- The first such thing is an integer in a key that is too long for text. -/
def ShowsLongInteger (v : Value) : Prop := v.StopsAt .longKey

theorem outline_eq_error_iff {v : Value} {e : OutlineError} :
    v.outline maxNesting = .error e ↔ v.StopsAt e := by
  rw [StopsAt, ← Result.forM_eq_error_iff, ← outline_eq v (by decide :
    conversionSteps * maxNesting + 0 = maxSteps)]
  cases v.outline maxNesting <;> simp [ending]

/-- A list in a list, so many times. -/
def nested : Nat → Value
  | 0 => null
  | n + 1 => list [nested n]

theorem isTooDeep_nested {n : Nat} (h : maxNesting < n) : (nested n).IsTooDeep := by
  have houtline : ∀ {n depth : Nat}, depth < n → (nested n).outline depth = .error .depth := by
    intro n
    induction n with
    | zero => omega
    | succ n ih =>
      intro depth hdepth
      rw [nested, outline]
      split_ifs with hzero
      · rfl
      · rw [outlineItems, ih (by omega)]
        rfl
  exact outline_eq_error_iff.mp (houtline h)

end Value

/-! ## Codecs and files -/

variable {v : Value}

namespace Codec

variable {codec : Codec}

/-- The codec has a text or a refusal for the value: nothing in it is too deep, and the indent can
be counted, unless it is not come to. -/
structure Settles (codec : Codec) (v : Value) : Prop where
  shallow : ¬v.IsTooDeep
  indents : codec.canIndent = true ∨ v.isText = true ∨ v.ShowsLongInteger

theorem encode_spec (codec : Codec) (v : Value) :
    (codec.Settles v ∧
      ((∃ t, codec.encode v = .ok t) ∨ ∃ cause, codec.encode v = .error (.codec cause))) ∨
    (v.IsTooDeep ∧ codec.encode v = .error .depth) ∨
    (¬v.IsTooDeep ∧ ¬codec.Settles v ∧ codec.encode v = .error .indent) := by
  have hstops : ∀ e, v.StopsAt e ↔ v.outline Value.maxNesting = .error e := fun e =>
    Value.outline_eq_error_iff.symm
  cases houtline : v.outline Value.maxNesting with
  | error e =>
    cases e with
    | depth => exact .inr (.inl ⟨(hstops _).mpr houtline, by rw [encode, houtline]⟩)
    | longKey =>
      refine .inl ⟨⟨fun hdeep => ?_, .inr (.inr ((hstops _).mpr houtline))⟩, .inr ?_⟩
      · cases houtline.symm.trans ((hstops _).mp hdeep)
      · exact ⟨.unwritable v.typeName .longInteger, by rw [encode, houtline]⟩
  | ok draft =>
    have hnone : ∀ e, ¬v.StopsAt e := by
      intro e h
      cases houtline.symm.trans ((hstops e).mp h)
    by_cases hlaid : (codec.canIndent || v.isText) = true
    · refine .inl ⟨⟨hnone _, ?_⟩, ?_⟩
      · rw [← or_assoc, ← Bool.or_eq_true]
        exact .inl hlaid
      · rw [encode, houtline]
        simp only [hlaid, if_true]
        cases draft with
        | ok j => exact .inl ⟨_, rfl⟩
        | error reason => exact .inr ⟨_, rfl⟩
    · refine .inr (.inr ⟨hnone _, fun h => ?_, ?_⟩)
      · have hindents := h.indents
        rw [← or_assoc, ← Bool.or_eq_true] at hindents
        exact hindents.elim hlaid (hnone _)
      · rw [encode, houtline]
        simp only [hlaid, if_false, Bool.false_eq_true]

end Codec

theorem CacheFile.exec_put_error {f : CacheFile} {e : Failure} (h : f.encode v = .error e)
    (w : World) : ((f.put v).exec w).1 = .error e ∧ ((f.put v).exec w).2.disk = w.disk := by
  obtain ⟨lines, hexec⟩ := says_put_error h w
  rw [hexec]
  exact ⟨rfl, rfl⟩

theorem CacheFile.complains_iff {f : CacheFile} {e : Failure} (h : f.encode v = .error e)
    (w : World) : (∃ e, ((f.put v).exec w).1 = .error e ∧ e.family? = some .cacheWrite) ↔
      e.family? = some .cacheWrite := by
  rw [(exec_put_error h w).1]
  constructor
  · rintro ⟨_, ⟨⟩, hfamily⟩
    exact hfamily
  · exact fun hfamily => ⟨e, rfl, hfamily⟩

/-- **Values without a text.** A value is encoded or refused by the codec exactly if it is not too
deep and the indent can be counted. The indent of a text does not matter, nor that of a value with a
key whose integer is too long, which is refused before. If a value has no text the file is left as
it is, and the failure is that of a write in the same cases. -/
theorem CacheFile.unencoded_iff (f : CacheFile) (v : Value) (w : World) :
    (((∃ t, f.codec.encode v = .ok t) ∨ ∃ cause, f.codec.encode v = .error (.codec cause)) ↔
      f.codec.Settles v) ∧
    ((∃ e, f.codec.encode v = .error e) → ((f.put v).exec w).2.disk = w.disk ∧
      ((∃ e, ((f.put v).exec w).1 = .error e ∧ e.family? = some .cacheWrite) ↔
        f.codec.Settles v) ∧
      (v.IsTooDeep → ((f.put v).exec w).1 = .error .valueDepth) ∧
      (¬v.IsTooDeep → ¬f.codec.Settles v → ((f.put v).exec w).1 = .error .indent)) := by
  rcases f.codec.encode_spec v with ⟨hsettles, ⟨t, hencode⟩ | ⟨cause, hencode⟩⟩ |
    ⟨hdeep, hencode⟩ | ⟨hshallow, hunsettled, hencode⟩
  · refine ⟨iff_of_true (.inl ⟨t, hencode⟩) hsettles, ?_⟩
    rintro ⟨e, he⟩
    cases hencode.symm.trans he
  · have hfails : f.encode v = .error (.cacheWrite f.path (.codec cause)) := by
      rw [encode, hencode, Result.mapError_error]
    refine ⟨iff_of_true (.inr ⟨cause, hencode⟩) hsettles,
      fun _ => ⟨(exec_put_error hfails w).2, (complains_iff hfails w).trans ?_, ?_, ?_⟩⟩
    · exact iff_of_true rfl hsettles
    · exact fun hdeep => absurd hdeep hsettles.shallow
    · exact fun _ hunsettled => absurd hsettles hunsettled
  · have hunsettled : ¬f.codec.Settles v := fun h => h.shallow hdeep
    have hfails : f.encode v = .error .valueDepth := by
      rw [encode, hencode, Result.mapError_error]
    refine ⟨iff_of_false ?_ hunsettled,
      fun _ => ⟨(exec_put_error hfails w).2, (complains_iff hfails w).trans ?_, ?_, ?_⟩⟩
    · simp [hencode]
    · exact iff_of_false (fun hfamily => by cases hfamily) hunsettled
    · exact fun _ => (exec_put_error hfails w).1
    · exact fun hshallow => absurd hdeep hshallow
  · have hfails : f.encode v = .error .indent := by
      rw [encode, hencode, Result.mapError_error]
    refine ⟨iff_of_false ?_ hunsettled,
      fun _ => ⟨(exec_put_error hfails w).2, (complains_iff hfails w).trans ?_, ?_, ?_⟩⟩
    · simp [hencode]
    · exact iff_of_false (fun hfamily => by cases hfamily) hunsettled
    · exact fun hdeep => absurd hdeep hshallow
    · exact fun _ _ => (exec_put_error hfails w).1

example : (⟨some (10 ^ 30), true, true⟩ : Codec).encode (.int 1) = .error .indent := rfl

/-- The codec does not refuse a list that is too deep, and the failure to write it is no failure of
a write. -/
theorem CacheFile.nested_not_refused :
    ¬((∃ t, Codec.tolerant.encode (.nested 700) = .ok t) ∨
      ∃ cause, Codec.tolerant.encode (.nested 700) = .error (.codec cause)) ∧
    (((Catalog.resolutions.fileAt ⟨"/", ["resolutions.json"]⟩).put (.nested 700)).exec
      (Cached.sampleWorld fun _ => [])).1 = .error .valueDepth := by
  have hdeep : (Value.nested 700).IsTooDeep := Value.isTooDeep_nested (by decide)
  obtain ⟨hrefused, hreported⟩ := unencoded_iff
    (Catalog.resolutions.fileAt ⟨"/", ["resolutions.json"]⟩) (.nested 700)
    (Cached.sampleWorld fun _ => [])
  have hunsettled : ¬Codec.tolerant.Settles (.nested 700) := fun h => h.shallow hdeep
  have hnone := fun h => hunsettled (hrefused.mp h)
  refine ⟨hnone, (hreported ?_).2.2.1 hdeep⟩
  rcases Codec.tolerant.encode_spec (.nested 700) with
    ⟨hsettles, -⟩ | ⟨-, hencode⟩ | ⟨-, -, hencode⟩
  · exact absurd hsettles hunsettled
  · exact ⟨_, hencode⟩
  · exact ⟨_, hencode⟩

end CatalogCache

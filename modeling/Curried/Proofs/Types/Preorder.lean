import Curried.Proofs.Types.Acceptance
import Curried.Types.Ty

/-!
# Fitting is a preorder

A type fits where itself is expected, and if all matchers accept everything, fitting is transitive:
between function types the roles of the two types change at every parameter, so the induction is on
the type in the middle.  A registry that grows accepts no less.

`Ty.fitsBy` asks the same question as `Registry.fits`, but it leaves open what named types accept,
and it may take a short cut between function types that are known to be the same.  Matchers that look
at more of a type than its outline are covered by it, and the short cut makes no difference.
-/

namespace Curried

/-! ### Fitting, whatever named types accept -/

namespace Ty

/-- Whether a type can stand where another one is expected, if `accepts` says what named types
accept and `shared` knows of function types that they are one and the same. -/
def fitsBy (accepts : TypeId → Ty → Bool) (shared : Ty → Ty → Bool) : Ty → Ty → Bool
  | .named id, actual => accepts id actual
  | .function _ _ _ _, .named _ => false
  | .function label parameter body scope, .function label' parameter' body' scope' =>
      shared (.function label parameter body scope) (.function label' parameter' body' scope') ||
        fitsBy accepts shared parameter' parameter
termination_by expected actual => sizeOf expected + sizeOf actual

variable {accepts later : TypeId → Ty → Bool} {shared : Ty → Ty → Bool}

theorem fitsBy_self (self : ∀ id, accepts id (.named id) = true) :
    ∀ type, fitsBy accepts shared type type = true
  | .named id => by rw [fitsBy, self]
  | .function label parameter body scope => by
      rw [fitsBy, fitsBy_self self parameter, Bool.or_true]

/-- Types that are one and the same fit anyway, so the short cut changes no answer. -/
theorem fitsBy_shared (self : ∀ id, accepts id (.named id) = true)
    (same : ∀ first second, shared first second = true → first = second) (expected actual : Ty) :
    fitsBy accepts shared expected actual = fitsBy accepts (fun _ _ => false) expected actual := by
  induction expected, actual using fitsBy.induct with
  | case1 id actual => rw [fitsBy, fitsBy]
  | case2 label parameter body scope id => rw [fitsBy, fitsBy]
  | case3 label parameter body scope label' parameter' body' scope' ih =>
      rw [fitsBy, fitsBy, ih, Bool.false_or]
      cases known : shared (.function label parameter body scope)
          (.function label' parameter' body' scope') with
      | false => rw [Bool.false_or]
      | true =>
          obtain ⟨_, rfl, _, _⟩ := Ty.function.inj (same _ _ known)
          rw [Bool.true_or, fitsBy_self self]

theorem fitsBy_mono (more : ∀ id actual, accepts id actual = true → later id actual = true)
    {expected actual : Ty} (fits : fitsBy accepts shared expected actual = true) :
    fitsBy later shared expected actual = true := by
  induction expected, actual using fitsBy.induct with
  | case1 id actual =>
      rw [fitsBy] at fits ⊢
      exact more id actual fits
  | case2 label parameter body scope id =>
      rw [fitsBy] at fits
      cases fits
  | case3 label parameter body scope label' parameter' body' scope' ih =>
      rw [fitsBy, Bool.or_eq_true] at fits ⊢
      exact fits.imp_right ih

/-- If named types accept along chains, and one that accepts a function type accepts everything,
then fitting is transitive.  The parameters of three function types stand the other way round, with
the middle one still in the middle. -/
theorem fitsBy_trans
    (chain : ∀ id other actual, accepts id (.named other) = true → accepts other actual = true →
      accepts id actual = true)
    (everything : ∀ id label parameter body scope actual,
      accepts id (.function label parameter body scope) = true → accepts id actual = true) :
    ∀ middle {expected actual : Ty}, fitsBy accepts (fun _ _ => false) expected middle = true →
      fitsBy accepts (fun _ _ => false) middle actual = true →
        fitsBy accepts (fun _ _ => false) expected actual = true
  | .named other, .named id, actual, first, second => by
      rw [fitsBy] at *
      exact chain id other actual first second
  | .named other, .function .., actual, first, second => by
      rw [fitsBy] at first
      cases first
  | .function label parameter body scope, .named id, actual, first, second => by
      rw [fitsBy] at *
      exact everything id label parameter body scope actual first
  | .function .., .function .., .named _, first, second => by
      rw [fitsBy] at second
      cases second
  | .function _ parameter _ _, .function .., .function .., first, second => by
      rw [fitsBy, Bool.false_or] at *
      exact fitsBy_trans chain everything parameter second first

end Ty

namespace Registry

variable {registry later : Registry} {shared : Ty → Ty → Bool}

/-- The check of a registry starts with the expected type if `forward` holds, and with the actual
one otherwise. -/
theorem fits_eq_fitsBy (registry : Registry) : ∀ (first second : Ty) (forward : Bool),
    registry.fits first second forward =
      if forward then
        Ty.fitsBy (fun id actual => registry.accepts id actual.outline) (fun _ _ => false) first
          second
      else
        Ty.fitsBy (fun id actual => registry.accepts id actual.outline) (fun _ _ => false) second
          first
  | .named _, .named _, true => by simp [fits, Ty.fitsBy]
  | .named _, .named _, false => by simp [fits, Ty.fitsBy]
  | .named _, .function .., true => by simp [fits, Ty.fitsBy]
  | .named _, .function .., false => by simp [fits, Ty.fitsBy]
  | .function .., .named _, true => by simp [fits, Ty.fitsBy]
  | .function .., .named _, false => by simp [fits, Ty.fitsBy]
  | .function _ parameter _ _, .function _ parameter' _ _, forward => by
      rw [fits, fits_eq_fitsBy registry parameter parameter']
      cases forward <;> simp [Ty.fitsBy]

/-! ### Matchers that look at whole types -/

/-- For every named type, a test of all of a type. -/
abbrev Matchers := TypeId → Ty → Bool

/-- The matchers of a registry, which look at outlines only. -/
def matchers (registry : Registry) : Matchers := fun id actual =>
  (registry.get? id).any fun definition => definition.matches actual.outline

/-- Whether a single type accepts another, apart from its children; only defined types have a
matcher. -/
def acceptsHereBy (registry : Registry) (matchers : Matchers) (actual : Ty) (id : TypeId) : Bool :=
  actual.outline == .named id || (registry.get? id).isSome && matchers id actual

/-- Whether a named type accepts a type, with other matchers than those of its registry. -/
def acceptsBy (registry : Registry) (matchers : Matchers) (expected : TypeId) (actual : Ty) :
    Bool :=
  (registry.searchFrom (registry.acceptsHereBy matchers actual) (registry.definitions.length + 1)
    [] expected).any Search.found

/-- As `reduce`, with other matchers than those of the registry, and with a short cut between
function types that `shared` knows to be the same. -/
def reduceBy (registry : Registry) (matchers : Matchers) (shared : Ty → Ty → Bool)
    (expected actual : Ty) : Except TypeError Ty :=
  if Ty.fitsBy (registry.acceptsBy matchers) shared expected actual then .ok actual
  else .error (.mismatch (registry.describe expected) (registry.describe actual))

theorem acceptsBy_matchers (registry : Registry) :
    registry.acceptsBy registry.matchers = fun id actual => registry.accepts id actual.outline := by
  funext id actual
  have here : registry.acceptsHereBy registry.matchers actual =
      registry.acceptsHere actual.outline := by
    funext id
    unfold acceptsHereBy acceptsHere matchers
    cases registry.get? id <;> rfl
  rw [acceptsBy, here, accepts]

theorem acceptsBy_iff_leads (registry : Registry) (matchers : Matchers) (expected : TypeId)
    (actual : Ty) : registry.acceptsBy matchers expected actual = true ↔
      registry.Leads (registry.acceptsHereBy matchers actual) expected := by
  obtain ⟨result, ended, found⟩ :=
    searchFrom_eq_some registry expected (registry.acceptsHereBy matchers actual) 0
  rw [acceptsBy, ended]
  exact found

theorem acceptsBy_self (registry : Registry) (matchers : Matchers) (id : TypeId) :
    registry.acceptsBy matchers id (.named id) = true :=
  (acceptsBy_iff_leads ..).2 ⟨id, .refl, by simp [acceptsHereBy, Ty.outline]⟩

theorem reduceBy_eq_ok_iff {matchers : Matchers} {expected actual : Ty} :
    registry.reduceBy matchers shared expected actual = .ok actual ↔
      Ty.fitsBy (registry.acceptsBy matchers) shared expected actual = true := by
  unfold reduceBy
  split
  · simp [*]
  · simp [*]

/-- The check with the matchers of the registry, whatever function types are known to be the same. -/
theorem reduceBy_matchers (registry : Registry)
    (same : ∀ first second, shared first second = true → first = second) :
    registry.reduceBy registry.matchers shared = registry.reduce := by
  funext expected actual
  unfold reduceBy reduce
  rw [Ty.fitsBy_shared (registry.acceptsBy_self _) same, acceptsBy_matchers, fits_eq_fitsBy,
    if_pos rfl]

/-! ### Matchers that accept everything -/

/-- Every matcher in the registry accepts all types. -/
def AllMatch (registry : Registry) : Prop :=
  ∀ definition ∈ registry.definitions, ∀ matcher ∈ definition.matcher, ∀ actual,
    matcher actual = true

/-- A registry that is made from the standard one by defining types without matcher and adding
children. -/
inductive FromStandard : Registry → Prop where
  | standard : FromStandard .standard
  | define {registry : Registry} (name : String) :
      FromStandard registry → FromStandard (registry.define name none)
  | addChild {registry : Registry} (parent child : TypeId) :
      FromStandard registry → FromStandard (registry.addChild parent child)

theorem AllMatch.define (all : registry.AllMatch) (name : String) :
    (registry.define name none).AllMatch := by
  intro definition member
  rcases List.mem_append.1 member with old | new
  · exact all definition old
  · rw [List.mem_singleton.1 new]
    exact nofun

theorem AllMatch.addChild (all : registry.AllMatch) (parent child : TypeId) :
    (registry.addChild parent child).AllMatch := by
  intro definition member
  obtain ⟨id, found⟩ := List.mem_iff_getElem?.1 member
  rw [Registry.addChild, List.getElem?_modify] at found
  obtain ⟨before, defined, rfl⟩ := Option.map_eq_some_iff.1 found
  have old := all before (List.mem_iff_getElem?.2 ⟨id, defined⟩)
  split <;> exact old

theorem FromStandard.allMatch (made : registry.FromStandard) : registry.AllMatch := by
  induction made with
  | standard =>
      have any : (empty.define "any" (some fun _ => true)).AllMatch := by
        simp [AllMatch, Registry.define, empty]
      exact ((((any.define "number").define "string").define "boolean").define "null").define "list"
  | define name _ ih => exact ih.define name
  | addChild parent child _ ih => exact ih.addChild parent child

/-- If all matchers accept everything, then so does a type that leads to one with a matcher. -/
theorem AllMatch.accepts_iff (all : registry.AllMatch) {expected : TypeId} {actual : Outline} :
    registry.accepts expected actual = true ↔
      ∃ id, Relation.ReflTransGen registry.HasChild expected id ∧
        (actual = .named id ∨
          ∃ definition, registry.get? id = some definition ∧ definition.matcher.isSome = true) := by
  rw [accepts_iff_leads]
  refine exists_congr fun id => and_congr_right fun _ => ?_
  rw [acceptsHere_iff]
  refine or_congr_right (exists_congr fun definition => and_congr_right fun defined => ?_)
  have known := all definition (List.mem_iff_getElem?.2 ⟨id, defined⟩)
  unfold TypeDefinition.matches
  cases matcher : definition.matcher with
  | none => simp
  | some test => simpa using known test matcher actual

theorem AllMatch.accepts_chain (all : registry.AllMatch) {id other : TypeId} {actual : Outline}
    (first : registry.accepts id (.named other) = true)
    (second : registry.accepts other actual = true) : registry.accepts id actual = true := by
  rw [all.accepts_iff] at *
  obtain ⟨last, reaches, here | universal⟩ := first
  · obtain rfl : other = last := Outline.named.inj here
    obtain ⟨final, further, passes⟩ := second
    exact ⟨final, reaches.trans further, passes⟩
  · exact ⟨last, reaches, .inr universal⟩

/-- Only a type that leads to a matcher accepts function types, and it accepts everything. -/
theorem AllMatch.accepts_everything (all : registry.AllMatch) {id : TypeId} {label : Option String}
    {parameter : Outline} {body : TypeExpression}
    (accepted : registry.accepts id (.function label parameter body) = true) (actual : Outline) :
    registry.accepts id actual = true := by
  rw [all.accepts_iff] at *
  obtain ⟨last, reaches, here | universal⟩ := accepted
  · cases here
  · exact ⟨last, reaches, .inr universal⟩

/-! ### Registries that grow -/

/-- The later registry has all definitions of the earlier one, with the same matchers and no fewer
children. -/
def Grows (registry later : Registry) : Prop :=
  ∀ id definition, registry.get? id = some definition →
    ∃ children, definition.children ⊆ children ∧
      later.get? id = some { definition with children := children }

theorem grows_define (registry : Registry) (name : String) (matcher : Option (Outline → Bool)) :
    registry.Grows (registry.define name matcher) := by
  intro id definition defined
  refine ⟨definition.children, List.Subset.refl _, ?_⟩
  have bounded : id < registry.definitions.length := (List.getElem?_eq_some_iff.1 defined).1
  exact (List.getElem?_append_left bounded).trans defined

theorem grows_addChild (registry : Registry) (parent child : TypeId) :
    registry.Grows (registry.addChild parent child) := by
  intro id definition defined
  have found : registry.definitions[id]? = some definition := defined
  rw [get?, addChild, List.getElem?_modify, found]
  by_cases here : parent = id
  · exact ⟨definition.children ++ [child], List.subset_append_left _ _, by simp [here]⟩
  · exact ⟨definition.children, List.Subset.refl _, by simp [here]⟩

theorem Grows.hasChild (grows : registry.Grows later) {parent child : TypeId}
    (listed : registry.HasChild parent child) : later.HasChild parent child := by
  obtain ⟨definition, defined, member⟩ := listed
  obtain ⟨children, kept, defined'⟩ := grows parent definition defined
  exact ⟨_, defined', kept member⟩

theorem Grows.acceptsBy (grows : registry.Grows later) {matchers matchers' : Matchers}
    (same : ∀ id < registry.next, matchers' id = matchers id) (expected : TypeId) (actual : Ty)
    (accepted : registry.acceptsBy matchers expected actual = true) :
    later.acceptsBy matchers' expected actual = true := by
  rw [acceptsBy_iff_leads] at *
  obtain ⟨id, reaches, passes⟩ := accepted
  refine ⟨id, Relation.ReflTransGen.mono (fun _ _ => grows.hasChild) _ _ reaches, ?_⟩
  unfold acceptsHereBy at *
  rw [Bool.or_eq_true, Bool.and_eq_true] at *
  refine passes.imp_right fun ⟨defined, matched⟩ => ?_
  obtain ⟨definition, defined⟩ := Option.isSome_iff_exists.1 defined
  obtain ⟨children, _, defined'⟩ := grows id definition defined
  have bounded : id < registry.next := (List.getElem?_eq_some_iff.1 defined).1
  exact ⟨by rw [defined']; rfl, by rw [same id bounded]; exact matched⟩

/-- The matchers of the definitions that were there before are still the same. -/
theorem Grows.matchers_eq (grows : registry.Grows later) (id : TypeId) (bounded : id < registry.next) :
    later.matchers id = registry.matchers id := by
  have defined : registry.get? id = some registry.definitions[id] :=
    List.getElem?_eq_getElem bounded
  obtain ⟨children, _, defined'⟩ := grows id _ defined
  unfold matchers
  rw [defined, defined']
  rfl

theorem Grows.reduceBy (grows : registry.Grows later) {matchers matchers' : Matchers}
    (same : ∀ id < registry.next, matchers' id = matchers id) {expected actual : Ty}
    (reduces : registry.reduceBy matchers shared expected actual = .ok actual) :
    later.reduceBy matchers' shared expected actual = .ok actual := by
  rw [reduceBy_eq_ok_iff] at *
  exact Ty.fitsBy_mono (grows.acceptsBy same) reduces

/-! ### The check of a registry -/

/-- Nothing is known to be the same. -/
theorem reduceBy_distinct (registry : Registry) :
    registry.reduceBy registry.matchers (fun _ _ => false) = registry.reduce :=
  registry.reduceBy_matchers nofun

theorem Grows.reduce (grows : registry.Grows later) {expected actual : Ty}
    (reduces : registry.reduce expected actual = .ok actual) :
    later.reduce expected actual = .ok actual := by
  rw [← reduceBy_distinct] at *
  exact grows.reduceBy grows.matchers_eq reduces

theorem AllMatch.reduce_trans (all : registry.AllMatch) {first second third : Ty}
    (left : registry.reduce first second = .ok second)
    (right : registry.reduce second third = .ok third) :
    registry.reduce first third = .ok third := by
  rw [← reduceBy_distinct, reduceBy_eq_ok_iff, acceptsBy_matchers] at *
  exact Ty.fitsBy_trans (fun _ _ _ => all.accepts_chain)
    (fun _ _ _ _ _ actual accepted => all.accepts_everything accepted actual.outline)
    second left right

/-- Every type reduces to itself.  If all matchers of the registry accept everything, reductions
compose.  Neither a new definition nor a new child turns a pair that reduces into one that does not.

It makes no difference to the check whether function types that are one and the same are compared;
and every type reduces to itself, and no pair is lost, also if matchers look at all of a type. -/
theorem reduce_preorder_and_grows (registry : Registry) (shared : Ty → Ty → Bool)
    (same : ∀ first second, shared first second = true → first = second) :
    (∀ type, registry.reduce type type = .ok type) ∧
    (registry.FromStandard → registry.AllMatch) ∧
    (registry.AllMatch → ∀ first second third, registry.reduce first second = .ok second →
      registry.reduce second third = .ok third → registry.reduce first third = .ok third) ∧
    (∀ expected actual, registry.reduce expected actual = .ok actual →
      (∀ name matcher, (registry.define name matcher).reduce expected actual = .ok actual) ∧
      ∀ parent child, (registry.addChild parent child).reduce expected actual = .ok actual) ∧
    registry.reduceBy registry.matchers shared = registry.reduce ∧
    ∀ matchers : Matchers,
      (∀ type, registry.reduceBy matchers shared type type = .ok type) ∧
      ∀ expected actual, registry.reduceBy matchers shared expected actual = .ok actual →
        (∀ name matcher (matchers' : Matchers), (∀ id < registry.next, matchers' id = matchers id) →
          (registry.define name matcher).reduceBy matchers' shared expected actual = .ok actual) ∧
        ∀ parent child,
          (registry.addChild parent child).reduceBy matchers shared expected actual = .ok actual := by
  have self (matchers : Matchers) (type : Ty) :
      registry.reduceBy matchers shared type type = .ok type :=
    reduceBy_eq_ok_iff.2 (Ty.fitsBy_self (registry.acceptsBy_self matchers) type)
  have own := registry.reduceBy_matchers same
  refine ⟨fun type => own ▸ self registry.matchers type, FromStandard.allMatch, fun all _ _ _ =>
    all.reduce_trans, fun expected actual reduces => ⟨fun name matcher => ?_, fun parent child => ?_⟩,
    own, fun matchers => ⟨self matchers, fun expected actual reduces => ⟨?_, fun parent child => ?_⟩⟩⟩
  · exact (registry.grows_define name matcher).reduce reduces
  · exact (registry.grows_addChild parent child).reduce reduces
  · exact fun name matcher _ kept => (registry.grows_define name matcher).reduceBy kept reduces
  · exact (registry.grows_addChild parent child).reduceBy (fun _ _ => rfl) reduces

/-- A function of whole numbers is expected, one of anything is there; and it is still accepted when
a type is defined or gets a child.  Equal named types are known to be the same. -/
theorem reduce_preorder_and_grows_functions :
    let registry := (standard.define "integer" none).addChild 1 6
    let takes (parameter : Ty) : Ty := .function none parameter (.named "string") ⟨.empty, registry⟩
    let shared : Ty → Ty → Bool
      | .named id, .named other => id == other
      | _, _ => false
    (∀ first second, shared first second = true → first = second) ∧ registry.FromStandard ∧
      registry.reduce (takes (.named 6)) (takes (.named 1)) = .ok (takes (.named 1)) ∧
      registry.reduce (takes (.named 1)) (takes (.named 0)) = .ok (takes (.named 0)) ∧
      registry.reduce (takes (.named 6)) (takes (.named 0)) = .ok (takes (.named 0)) ∧
      ((registry.define "natural" none).reduce (takes (.named 6)) (takes (.named 0)) =
        .ok (takes (.named 0))) ∧
      (registry.addChild 6 1).reduce (takes (.named 6)) (takes (.named 0)) =
        .ok (takes (.named 0)) := by
  intro registry takes shared
  have same : ∀ first second, shared first second = true → first = second := by
    rintro (id | _) (other | _) known
    · exact congrArg Ty.named (by simpa [shared] using known)
    all_goals exact nomatch known
  have made : registry.FromStandard := (FromStandard.standard.define "integer").addChild 1 6
  have left : registry.reduce (takes (.named 6)) (takes (.named 1)) = .ok (takes (.named 1)) := rfl
  have right : registry.reduce (takes (.named 1)) (takes (.named 0)) = .ok (takes (.named 0)) := rfl
  obtain ⟨_, allMatch, trans, grows, _⟩ := reduce_preorder_and_grows registry shared same
  have both := trans (allMatch made) _ _ _ left right
  exact ⟨same, made, left, right, both, (grows _ _ both).1 "natural" none,
    (grows _ _ both).2 6 1⟩

end Registry

end Curried

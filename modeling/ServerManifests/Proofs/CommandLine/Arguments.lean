import ServerManifests.CommandLine.Arguments
import ServerManifests.Proofs.Success

/-!
The words of the commands that render. What follows a directory for the files means
the same with it, without it and to the command for the instructions.
-/
namespace ServerManifests.CommandLine

namespace Given

/-- What is given together with a directory for the files. -/
def withOutput (given : Given) (directory : String) : Given :=
  { given with parameters := (.outputDirectory, directory) :: given.parameters }

variable {given next : Given} {directory : String}

theorem all_withOutput {parameter : Parameter} (hparameter : parameter ≠ .outputDirectory) :
    (given.withOutput directory).all parameter = given.all parameter := by
  unfold all withOutput
  rw [List.filter_cons_of_neg (by simpa using hparameter.symm)]

/-- A directory is given once only; everything else is added as without it. -/
theorem add_withOutput {parameter : Parameter} {value : String}
    (h : (given.withOutput directory).add parameter value = .ok next) :
    parameter ≠ .outputDirectory ∧ ∃ next', given.add parameter value = .ok next' ∧
      next'.all .outputDirectory = given.all .outputDirectory ∧
      next = next'.withOutput directory := by
  have hparameter : parameter ≠ .outputDirectory := by
    rintro rfl
    cases h
  have hkept : ({ given with parameters := given.parameters ++ [(parameter, value)] } : Given).all
      .outputDirectory = given.all .outputDirectory := by
    simp [all, List.filter_append, hparameter]
  refine ⟨hparameter, { given with parameters := given.parameters ++ [(parameter, value)] }, ?_⟩
  unfold add at h ⊢
  rw [all_withOutput hparameter] at h
  split at h
  · cases h
  · next honce =>
    rw [if_neg honce]
    split at h
    · cases h
    · next haccepts =>
      rw [if_neg haccepts]
      exact ⟨rfl, hkept, (Except.ok.inj h).symm⟩

theorem addLogsJson_withOutput (h : (given.withOutput directory).addLogsJson = .ok next) :
    ∃ next', given.addLogsJson = .ok next' ∧
      next'.all .outputDirectory = given.all .outputDirectory ∧
      next = next'.withOutput directory := by
  refine ⟨{ given with logsJson := true }, ?_⟩
  unfold addLogsJson at h ⊢
  split at h
  · cases h
  · next honce =>
    have honce' : ¬given.logsJson = true := honce
    rw [if_neg honce']
    exact ⟨rfl, rfl, (Except.ok.inj h).symm⟩

theorem inputs_withOutput (lookup : String → Option String) :
    (given.withOutput directory).inputs lookup = given.inputs lookup := by
  unfold inputs get
  rw [all_withOutput (by decide), all_withOutput (by decide), all_withOutput (by decide),
    all_withOutput (by decide), all_withOutput (by decide)]

end Given

variable {verb : Verb}

/-- The commands that render have the same parameters but for the directory. -/
theorem find?_parameters (hverb : verb ≠ .schema) {p : Parameter → Bool}
    (h : (Verb.parameters .render).find? p ≠ some .outputDirectory) :
    verb.parameters.find? p = (Verb.parameters .render).find? p := by
  have hparameters : Verb.parameters .render = Verb.parameters .notes ++ [.outputDirectory] := rfl
  cases verb with
  | schema => exact absurd rfl hverb
  | render => rfl
  | notes =>
    rw [hparameters, List.find?_append] at h ⊢
    cases hnotes : (Verb.parameters .notes).find? p with
    | some parameter => rfl
    | none =>
      rw [hnotes, Option.none_or, List.find?_singleton] at h
      rw [Option.none_or, List.find?_singleton, if_neg fun hp => h (if_pos hp)]

/-- A word that asks for no directory means the same to the commands that render. -/
theorem meaning_eq (hverb : verb ≠ .schema) {word : String}
    (h : ∀ value, Verb.meaning .render word ≠ .parameter .outputDirectory value) :
    verb.meaning word = Verb.meaning .render word := by
  unfold Verb.meaning at h ⊢
  split at h
  · split at h
    · rfl
    · rfl
    · rw [find?_parameters hverb]
      intro hfind
      rw [hfind] at h
      exact h _ rfl
  · rw [find?_parameters hverb]
    intro hfind
    rw [hfind] at h
    exact h _ rfl
  · rfl

/-- Words after a directory are read as without it, by either command. -/
theorem read_withOutput {given next : Given} {directory : String} {words : List String}
    (h : Verb.read .render (given.withOutput directory) words = .ok next) :
    ∃ next', (∀ verb, verb ≠ .schema → Verb.read verb given words = .ok next') ∧
      next'.all .outputDirectory = given.all .outputDirectory ∧
      next = next'.withOutput directory := by
  generalize hstart : given.withOutput directory = start at h
  fun_induction Verb.read .render start words generalizing given with subst hstart
  | case1 => exact ⟨given, fun verb _ => by rw [Verb.read], rfl, (Except.ok.inj h).symm⟩
  | case2 => exact ⟨given, fun verb _ => by rw [Verb.read], rfl, (Except.ok.inj h).symm⟩
  | case3 | case4 | case7 | case9 => cases h
  | case5 start word rest hend hmeaning ih =>
    obtain ⟨between, hadd, hrest⟩ := bind_eq_ok_iff.1 h
    obtain ⟨between', hadd', hkept, rfl⟩ := Given.addLogsJson_withOutput hadd
    obtain ⟨next', hread, hkept', hnext⟩ := ih _ rfl hrest
    refine ⟨next', fun verb hverb => ?_, hkept'.trans hkept, hnext⟩
    rw [Verb.read.eq_3 _ _ _ _ hend, meaning_eq hverb (by simp [hmeaning]), hmeaning]
    exact bind_eq_ok_iff.2 ⟨between', hadd', hread verb hverb⟩
  | case6 start word rest hend parameter value hmeaning ih =>
    obtain ⟨between, hadd, hrest⟩ := bind_eq_ok_iff.1 h
    obtain ⟨hparameter, between', hadd', hkept, rfl⟩ := Given.add_withOutput hadd
    obtain ⟨next', hread, hkept', hnext⟩ := ih _ rfl hrest
    refine ⟨next', fun verb hverb => ?_, hkept'.trans hkept, hnext⟩
    rw [Verb.read.eq_3 _ _ _ _ hend, meaning_eq hverb (by simp [hmeaning, hparameter]), hmeaning]
    exact bind_eq_ok_iff.2 ⟨between', hadd', hread verb hverb⟩
  | case8 start word parameter hmeaning value rest hvalue hend ih =>
    obtain ⟨between, hadd, hrest⟩ := bind_eq_ok_iff.1 h
    obtain ⟨hparameter, between', hadd', hkept, rfl⟩ := Given.add_withOutput hadd
    obtain ⟨next', hread, hkept', hnext⟩ := ih _ rfl hrest
    refine ⟨next', fun verb hverb => ?_, hkept'.trans hkept, hnext⟩
    rw [Verb.read.eq_3 _ _ _ _ hend, meaning_eq hverb (by simp [hmeaning, hparameter]), hmeaning]
    dsimp only
    rw [if_pos hvalue]
    exact bind_eq_ok_iff.2 ⟨between', hadd', hread verb hverb⟩

/-- A verb is none of the words that may stand in its place. -/
theorem ofName?_name (verb : Verb) :
    (verb.name ≠ "--log-json" ∧ verb.name ≠ "--help" ∧ verb.name ≠ "--version" ∧
      verb.name ≠ "help") ∧
    (verb.name.startsWith "-h" = false ∧ verb.name.startsWith "-V" = false) ∧
    Verb.ofName? verb.name = some verb := by
  cases verb <;> decide +kernel

theorem parse_verb_eq_ok_iff {lookup : String → Option String} {words : List String}
    {command : Command} :
    Command.parse lookup (verb.name :: words) = .ok command ↔
      ∃ given, verb.read {} words = .ok given ∧ isLogSetting (lookup logVariable) = true ∧
        command = given.command lookup verb := by
  obtain ⟨⟨hlog, hhelp, hversion, hword⟩, ⟨hh, hV⟩, hverb⟩ := ofName?_name verb
  have hparse : Command.parse lookup (verb.name :: words) = (do
      let given ← verb.read {} words
      if isLogSetting (lookup logVariable) then return given.command lookup verb
      else .error .misuse) := by
    unfold Command.parse Command.ofWords
    simp [hlog, hhelp, hversion, hword, hh, hV, hverb]
  rw [hparse, bind_eq_ok_iff]
  refine exists_congr fun given => and_congr_right fun _ => ?_
  cases isLogSetting (lookup logVariable) with
  | false => simp
  | true => simp [pure, Except.pure, eq_comm]

/-- Arguments that are accepted with a directory are accepted without it and for the
instructions, with the same inputs. -/
theorem parse_withOutput {lookup : String → Option String} {directory : String}
    {words : List String} {command : Command}
    (h : Command.parse lookup ("render" :: "-o" :: directory :: words) = .ok command) :
    ∃ inputs, command = .render inputs (some directory) ∧
      Command.parse lookup ("render" :: words) = .ok (.render inputs none) ∧
      Command.parse lookup ("notes" :: words) = .ok (.notes inputs) := by
  have hrender : Verb.name .render = "render" := rfl
  have hnotes : Verb.name .notes = "notes" := rfl
  have hmeaning : Verb.meaning .render "-o" = .parameter .outputDirectory none := by decide +kernel
  rw [← hrender, parse_verb_eq_ok_iff] at h
  obtain ⟨given, hread, hlog, rfl⟩ := h
  rw [Verb.read.eq_3 _ _ _ _ (by simp), hmeaning] at hread
  dsimp only at hread
  split at hread
  · obtain ⟨start, hadd, hread⟩ := bind_eq_ok_iff.1 hread
    obtain rfl : start = ({} : Given).withOutput directory := by
      unfold Given.add at hadd
      split at hadd
      · cases hadd
      · split at hadd
        · cases hadd
        · exact (Except.ok.inj hadd).symm
    obtain ⟨next, hverbs, hnone, rfl⟩ := read_withOutput hread
    refine ⟨next.inputs lookup, ?_, ?_, ?_⟩
    · have hdirectory : ((next.withOutput directory).all .outputDirectory).head? =
        some directory := rfl
      unfold Given.command
      rw [Given.inputs_withOutput, hdirectory]
    · rw [← hrender, parse_verb_eq_ok_iff]
      refine ⟨next, hverbs .render (by decide), hlog, ?_⟩
      unfold Given.command
      rw [hnone]
      rfl
    · rw [← hnotes, parse_verb_eq_ok_iff]
      exact ⟨next, hverbs .notes (by decide), hlog, rfl⟩
  · cases hread

end ServerManifests.CommandLine

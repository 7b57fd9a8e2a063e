import ServerManifests.CommandLine.Outcome
import ServerManifests.Proofs.CommandLine.Arguments
import ServerManifests.Proofs.CommandLine.FileTree
import ServerManifests.Proofs.Render.References

/-!
The commands that render agree. They load the same inputs before anything is printed
or written, so they fail alike and leave the files alone; and the files of a
directory are the documents of the stream, each under a name of its own.
-/
namespace ServerManifests.CommandLine

open Manifest

/-- What a command does on a tree of files. -/
def Command.runOn (command : Command) (tree : FileTree) : Outcome × FileTree :=
  (command.run FileTree.system).run tree

/-- A directory can be made, and then the files of all kinds can be written there. -/
structure CanWrite (directory : String) (tree ready : FileTree) : Prop where
  made : (FileTree.system.makeDirectories directory).run.run tree = (.ok (), ready)
  writes : ∀ kind : Kind, ∃ tree',
    ready.writeText (pathIn directory kind.fileName) "" = .ok tree'

theorem isPlainName_fileName (kind : Kind) : IsPlainName kind.fileName := by
  cases kind <;> constructor <;> decide +kernel

theorem CanWrite.exists_receives {directory : String} {tree ready : FileTree}
    (h : CanWrite directory tree ready) :
    ∃ place, ∀ kind : Kind, ready.Receives directory kind.fileName place := by
  obtain ⟨tree', hwrite⟩ := h.writes .secret
  obtain ⟨place, hplace⟩ := FileTree.receives_of_writeText (isPlainName_fileName .secret) hwrite
  refine ⟨place, fun kind => ?_⟩
  obtain ⟨tree', hwrite⟩ := h.writes kind
  obtain ⟨place', hplace'⟩ := FileTree.receives_of_writeText (isPlainName_fileName kind) hwrite
  obtain rfl := FileTree.outerPlace_unique hplace.plain hplace'.plain hplace.outer hplace'.outer
  exact hplace'

section

variable {α : Type} {tree tree' : FileTree}

theorem run_bind_of_ok {ε β : Type} {x : ExceptT ε (StateM FileTree) α}
    {f : α → ExceptT ε (StateM FileTree) β} {a : α} (h : x.run.run tree = (.ok a, tree')) :
    (x >>= f).run.run tree = (f a).run.run tree' := by
  rw [ExceptT.run_bind, StateT.run_bind, h]
  rfl

theorem run_readText (tree : FileTree) (path : String) :
    (FileTree.system.readText path).run.run tree = (tree.readText path, tree) := by
  change (ofExcept (tree.readText path) :
    ExceptT FileProblem (StateM FileTree) String).run.run tree = _
  cases tree.readText path <;> rfl

theorem run_writeText {path content : String} (h : tree.writeText path content = .ok tree') :
    (FileTree.system.writeText path content).run.run tree = (.ok (), tree') := by
  have hrun : (FileTree.system.writeText path content).run.run tree =
    (do set (← ofExcept (tree.writeText path content)) :
      ExceptT FileProblem (StateM FileTree) Unit).run.run tree := rfl
  rw [hrun, h]
  rfl

/-- Loading reads the files and leaves them as they are. -/
theorem run_load (inputs : Inputs) (tree : FileTree) :
    (inputs.load FileTree.system).run.run tree =
      (inputs.render (inputs.values.map tree.readText), tree) := by
  let attempt (path : String) : ExceptT Failure (StateM FileTree) (Except FileProblem String) :=
    (FileTree.system.readText path).run
  have hattempt (path : String) :
      (attempt path).run.run tree = (.ok (tree.readText path), tree) := by
    change (Except.ok <$> (FileTree.system.readText path).run).run tree = _
    rw [StateT.run_map, run_readText]
    rfl
  have htexts (paths : List String) :
      (paths.mapM attempt).run.run tree = (.ok (paths.map tree.readText), tree) := by
    induction paths with
    | nil => rfl
    | cons path rest ih =>
      rw [List.mapM_cons, run_bind_of_ok (hattempt path), run_bind_of_ok ih]
      rfl
  refine (run_bind_of_ok (htexts inputs.values)).trans ?_
  cases inputs.render (inputs.values.map tree.readText) <;> rfl

end

/-- Documents with names of their own are all in the directory in the end, and at other
places nothing changes. -/
theorem run_writeTexts {directory : String} {documents : List Document} {tree : FileTree}
    {place : FilePlace} (h : ∀ kind : Kind, tree.Receives directory kind.fileName place)
    (hnames : (documents.map (·.kind.fileName)).Nodup) :
    ∃ written, (documents.forM fun document => FileTree.system.writeText
        (pathIn directory document.kind.fileName) document.content).run.run tree =
          (.ok (), written) ∧
      (∀ kind : Kind, written.Receives directory kind.fileName place) ∧
      (∀ document ∈ documents, written.entry? (place ++ [document.kind.fileName]) =
        some (.file (some document.content))) ∧
      ∀ other, (∀ document ∈ documents, other ≠ place ++ [document.kind.fileName]) →
        written.entry? other = tree.entry? other := by
  induction documents generalizing tree with
  | nil => exact ⟨tree, rfl, h, List.forall_mem_nil _, fun _ _ => rfl⟩
  | cons document rest ih =>
    obtain ⟨hnew, hrest⟩ := List.nodup_cons.1 hnames
    have hdocument := h document.kind
    have hwrite := hdocument.writeText document.content
    have hkept (other : FilePlace) :
        FileTree.entry? (tree.put (place ++ [document.kind.fileName])
          (.file (some document.content))) other =
        if other = place ++ [document.kind.fileName] then some (.file (some document.content))
        else tree.entry? other := FileTree.entry?_put hdocument.isDirectory other
    obtain ⟨written, hrun, hreceives, hwritten, hother⟩ := ih
      (fun kind => (h kind).put hdocument (some document.content)) hrest
    refine ⟨written, ?_, hreceives, ?_, ?_⟩
    · exact (run_bind_of_ok (run_writeText hwrite)).trans hrun
    · refine List.forall_mem_cons.2 ⟨?_, hwritten⟩
      rw [hother, hkept, if_pos rfl]
      intro later hlater heq
      have hname := List.append_cancel_left heq
      exact hnew (List.mem_map.2 ⟨later, hlater, (List.cons.inj hname).1.symm⟩)
    · intro other hne
      obtain ⟨hfirst, hlater⟩ := List.forall_mem_cons.1 hne
      rw [hother other hlater, hkept, if_neg hfirst]

/-- Writing the documents of a bundle. -/
theorem CanWrite.run_writeBundle {directory : String} {tree ready : FileTree}
    (h : CanWrite directory tree ready) (bundle : Bundle) :
    ∃ place written, (writeBundle FileTree.system directory bundle).run.run tree =
        (.ok (), written) ∧
      (∀ kind : Kind, written.Receives directory kind.fileName place) ∧
      (∀ document ∈ bundle.documents, written.entry? (place ++ [document.kind.fileName]) =
        some (.file (some document.content))) ∧
      ∀ other, (∀ document ∈ bundle.documents, other ≠ place ++ [document.kind.fileName]) →
        written.entry? other = ready.entry? other := by
  obtain ⟨place, hplace⟩ := h.exists_receives
  obtain ⟨written, hrun, hwritten⟩ := run_writeTexts hplace bundle.nodup_fileNames
  exact ⟨place, written, (run_bind_of_ok h.made).trans hrun, hwritten⟩

section

variable {α : Type} {inputs : Inputs} {tree : FileTree}

/-- A command that loads goes on with what is rendered. -/
theorem run_load_bind_of_ok {rendered : Rendered}
    (h : inputs.render (inputs.values.map tree.readText) = .ok rendered)
    (next : Rendered → ExceptT Failure (StateM FileTree) α) :
    (inputs.load FileTree.system >>= next).run.run tree = (next rendered).run.run tree :=
  run_bind_of_ok ((run_load inputs tree).trans (by rw [h]))

/-- A command that cannot load fails with the files as they are. -/
theorem run_load_bind_of_error {failure : Failure}
    (h : inputs.render (inputs.values.map tree.readText) = .error failure)
    (next : Rendered → ExceptT Failure (StateM FileTree) α) :
    (inputs.load FileTree.system >>= next).run.run tree = (.error failure, tree) := by
  rw [ExceptT.run_bind, StateT.run_bind, run_load, h]
  rfl

end

theorem Command.runOn_of_ok {command : Command} {tree tree' : FileTree} {outcome : Outcome}
    (h : (command.attempt FileTree.system).run.run tree = (.ok outcome, tree')) :
    command.runOn tree = (outcome, tree') := by
  unfold runOn run
  rw [StateT.run_map, h]
  rfl

theorem Command.runOn_of_error {command : Command} {tree tree' : FileTree} {failure : Failure}
    (h : (command.attempt FileTree.system).run.run tree = (.error failure, tree')) :
    command.runOn tree = (.ofFailure failure, tree') := by
  unfold runOn run
  rw [StateT.run_map, h]
  rfl

theorem exitCode_ne_zero (failure : Failure) : failure.exitCode ≠ 0 := by
  unfold Failure.exitCode
  split <;> decide

/-- What the commands do with inputs that render: the stream is the files of the
directory in the order of the documents, each after a separator, and no file is that of
two documents. -/
structure Agrees (inputs : Inputs) (directory : String) (tree ready written : FileTree)
    (rendered : Rendered) : Prop where
  stream : (Command.render inputs none).runOn tree =
    ({ output := String.join (rendered.bundle.documents.map fun document =>
          "---\n" ++ document.content)
       messages := rendered.access.text }, tree)
  notes : (Command.notes inputs).runOn tree = ({ output := rendered.access.text }, tree)
  files : (Command.render inputs (some directory)).runOn tree =
    ({ messages := rendered.access.text }, written)
  contents : ∀ document ∈ rendered.bundle.documents,
    written.readText (pathIn directory document.kind.fileName) = .ok document.content
  apart : (rendered.bundle.documents.map fun document =>
    written.locate (pathIn directory document.kind.fileName)).Nodup
  /-- Where no document goes, there is what there was with the directory made. -/
  others : ∀ place, (∀ document ∈ rendered.bundle.documents,
    written.locate (pathIn directory document.kind.fileName) ≠ .ok place) →
      written.entry? place = ready.entry? place

theorem agrees_of_render {inputs : Inputs} {directory : String} {tree ready : FileTree}
    {rendered : Rendered} (hwrite : CanWrite directory tree ready)
    (hrender : inputs.render (inputs.values.map tree.readText) = .ok rendered) :
    ∃ written, Agrees inputs directory tree ready written rendered := by
  obtain ⟨place, written, hrun, hreceives, hwritten, hothers⟩ :=
    hwrite.run_writeBundle rendered.bundle
  have hlocate : ∀ document ∈ rendered.bundle.documents,
      written.locate (pathIn directory document.kind.fileName) =
        .ok (place ++ [document.kind.fileName]) := by
    intro document hdocument
    refine (hreceives document.kind).locate ?_
    rw [hwritten document hdocument]
    rfl
  refine ⟨written, ?_, ?_, ?_, ?_, ?_, ?_⟩
  · exact Command.runOn_of_ok (run_load_bind_of_ok hrender _)
  · exact Command.runOn_of_ok (run_load_bind_of_ok hrender _)
  · have hadapt : ((writeBundle FileTree.system directory rendered.bundle).adapt
        Failure.file).run.run tree = (.ok (), written) := by
      change (Except.mapError Failure.file <$>
        (writeBundle FileTree.system directory rendered.bundle).run).run tree = _
      rw [StateT.run_map, hrun]
      rfl
    exact Command.runOn_of_ok ((run_load_bind_of_ok hrender _).trans (run_bind_of_ok hadapt))
  · exact fun document hdocument =>
      (hreceives document.kind).readText (hwritten document hdocument)
  · rw [List.map_congr_left hlocate]
    have hnames := rendered.bundle.nodup_fileNames
    refine List.pairwise_map.2 ((List.pairwise_map.1 hnames).imp ?_)
    intro document document' hne heq
    exact hne (List.cons.inj (List.append_cancel_left (Except.ok.inj heq))).1
  · intro other hne
    refine hothers other fun document hdocument heq => hne document hdocument ?_
    rw [hlocate document hdocument, heq]

/-- With one set of arguments, streaming, writing into a directory and giving the
instructions fail with one failure before anything is written, or all succeed and
agree. -/
theorem commands_agree (lookup : String → Option String) (directory : String)
    (words : List String) (command : Command) (tree ready : FileTree)
    (hparse : Command.parse lookup ("render" :: "-o" :: directory :: words) = .ok command)
    (hwrite : CanWrite directory tree ready) :
    ∃ inputs, command = .render inputs (some directory) ∧
      Command.parse lookup ("render" :: words) = .ok (.render inputs none) ∧
      Command.parse lookup ("notes" :: words) = .ok (.notes inputs) ∧
      ((∃ failure : Failure, failure.exitCode ≠ 0 ∧
          ∀ form ∈ [.render inputs none, .render inputs (some directory), .notes inputs],
            Command.runOn form tree =
              ({ exitCode := failure.exitCode
                 output := ""
                 messages := "Error: " ++ failure.message ++ "\n" }, tree)) ∨
        ∃ rendered written, Agrees inputs directory tree ready written rendered) := by
  obtain ⟨inputs, hcommand, hrender, hnotes⟩ := parse_withOutput hparse
  refine ⟨inputs, hcommand, hrender, hnotes, ?_⟩
  cases hload : inputs.render (inputs.values.map tree.readText) with
  | ok rendered => exact .inr ⟨rendered, agrees_of_render hwrite hload⟩
  | error failure =>
    refine .inl ⟨failure, exitCode_ne_zero failure, ?_⟩
    simp only [List.forall_mem_cons, List.not_mem_nil, false_imp_iff, implies_true, and_true]
    refine ⟨?_, ?_, ?_⟩ <;> exact Command.runOn_of_error (run_load_bind_of_error hload _)

/-- Values from a file and an override, written into a directory that is not there yet. -/
theorem commands_agree_of_new_directory :
    let tree : FileTree :=
      { entries := [(["home", "values.yaml"], .file (some "ingress:\n  enabled: true\n"))]
        home := ["home"] }
    let words := ["-f", "values.yaml", "--set", "service.port=8080"]
    ∃ inputs ready written rendered,
      Command.parse (fun _ => none) ("render" :: "-o" :: "out/manifests" :: words) =
        .ok (.render inputs (some "out/manifests")) ∧
      CanWrite "out/manifests" tree ready ∧
      Agrees inputs "out/manifests" tree ready written rendered := by
  intro tree words
  have hparses : (Command.parse (fun _ => none)
      ("render" :: "-o" :: "out/manifests" :: words)).isOk = true := by decide +kernel
  obtain ⟨command, hparse⟩ := isOk_iff.1 hparses
  let made := (FileTree.system.makeDirectories "out/manifests").run.run tree
  have hmakes : made.1.isOk = true := by decide +kernel
  obtain ⟨⟨⟩, hmade⟩ := isOk_iff.1 hmakes
  have hwrite : CanWrite "out/manifests" tree made.2 := by
    refine ⟨Prod.ext hmade rfl, fun kind => ?_⟩
    rw [← isOk_iff]
    cases kind <;> decide +kernel
  obtain ⟨inputs, rfl, -, -, hruns⟩ := commands_agree (fun _ => none) "out/manifests" words command
    tree made.2 hparse hwrite
  rcases hruns with ⟨failure, hcode, hruns⟩ | ⟨rendered, written, hagrees⟩
  · have hsucceeds : (Command.parse (fun _ => none)
        ("render" :: "-o" :: "out/manifests" :: words)).toOption.map
          (fun command => (command.runOn tree).1.exitCode) = some 0 := by decide +kernel
    rw [hparse] at hsucceeds
    have hfails := hruns _ (List.mem_cons_of_mem _ List.mem_cons_self)
    have hexit : (Command.runOn _ tree).1.exitCode = failure.exitCode :=
      congrArg (·.1.exitCode) hfails
    exact absurd (hexit.symm.trans (Option.some.inj hsucceeds)) hcode
  · exact ⟨inputs, made.2, written, rendered, hparse, hwrite, hagrees⟩

end ServerManifests.CommandLine

/-
The log is a trace of the run and nothing more. Whatever the logger shows, reading and rendering
give the same; what it shows is what happened, without the events that are not grave enough.
-/
import Mathlib.Data.List.Forall2
import MailMerge.Log.Logger
import MailMerge.Proofs.Markup.Reading
import MailMerge.Proofs.Merge.Batch

namespace MailMerge.Markup

/-! ## The blocks of a template -/

mutual

/-- A node with all nodes inside of it. -/
def Node.parts : Node → List Node
  | .text value => [.text value]
  | .expansion e => [.expansion e]
  | .block tag body => .block tag body :: Node.partsIn body

/-- Nodes at all depths. -/
def Node.partsIn : List Node → List Node
  | [] => []
  | node :: nodes => node.parts ++ Node.partsIn nodes

end

/-- Whether a node is a block of a kind. -/
def Node.isBlock (kind : BlockKind) : Node → Bool
  | .block tag _ => tag.kind = kind
  | .text _ | .expansion _ => false

end MailMerge.Markup

namespace MailMerge.Merge

open MailMerge.Data MailMerge.Markup

namespace Piece

theorem length_ofNodes (nodes : List Node) : (ofNodes nodes).length = nodes.length := by
  induction nodes with
  | nil => rfl
  | cons node nodes ih => rw [ofNodes, List.length_cons, List.length_cons, ih]

mutual

theorem count_ofNode : ∀ node : Node,
    (ofNode node).loops = node.parts.countP (Node.isBlock .loop) ∧
      (ofNode node).conditionals = node.parts.countP (Node.isBlock .conditional)
  | .text value => by simp [ofNode, loops, conditionals, Node.parts, Node.isBlock]
  | .expansion e => by simp [ofNode, loops, conditionals, Node.parts, Node.isBlock]
  | .block (.loop head) body => by
    have hbody := count_ofNodes body
    simp [ofNode, loops, conditionals, Node.parts, Node.isBlock, Tag.kind, hbody]
  | .block (.conditional test) body => by
    have hbody := count_ofNodes body
    simp [ofNode, loops, conditionals, Node.parts, Node.isBlock, Tag.kind, hbody]

/-- No block is lost or added where nodes are made ready to be merged. -/
theorem count_ofNodes : ∀ nodes : List Node,
    loopsIn (ofNodes nodes) = (Node.partsIn nodes).countP (Node.isBlock .loop) ∧
      conditionalsIn (ofNodes nodes) = (Node.partsIn nodes).countP (Node.isBlock .conditional)
  | [] => by simp [ofNodes, loopsIn, conditionalsIn, Node.partsIn]
  | node :: nodes => by
    have hnode := count_ofNode node
    have hnodes := count_ofNodes nodes
    simp [ofNodes, loopsIn, conditionalsIn, Node.partsIn, hnode, hnodes]

end

end Piece

/-! ## Rows of a batch -/

namespace Batch

variable {t : Template} {d : Definition}

/-- The outputs of a batch are the texts of its first records: of all of them, or of those in front
of the one that fails. -/
theorem outputs_ofRecords (row : Nat) (records : List Record) :
    t.RendersAll d (records.take (ofRecords t d row records).outputs.length)
        (ofRecords t d row records).outputs ∧
      match (ofRecords t d row records).failure with
      | none => (ofRecords t d row records).outputs.length = records.length
      | some e => e.row = row + (ofRecords t d row records).outputs.length := by
  induction records generalizing row with
  | nil => exact ⟨.nil, rfl⟩
  | cons record rest ih =>
    obtain ⟨htexts, hend⟩ := ih (row + 1)
    rw [ofRecords]
    cases hrender : (t.render record d).result with
    | error cause => exact ⟨.nil, rfl⟩
    | ok text =>
      refine ⟨.cons hrender htexts, ?_⟩
      simp only
      cases hfailure : (ofRecords t d (row + 1) rest).failure with
      | none =>
        rw [hfailure] at hend
        exact congrArg Nat.succ hend
      | some e =>
        rw [hfailure] at hend
        simp only [List.length_cons] at hend ⊢
        omega

end Batch

end MailMerge.Merge

namespace MailMerge.Log

open MailMerge.Data MailMerge.Markup MailMerge.Merge

/-! ## Runs with a logger -/

/-- The logger after it was told of some events. -/
def Logger.after (logger : Logger) (events : List Event) : Logger :=
  { logger with events := logger.events ++ shown logger.threshold events }

theorem Logger.after_nil (logger : Logger) : logger.after [] = logger := by
  simp only [after, shown, List.filter_nil, List.append_nil]

theorem Logger.after_append (logger : Logger) (events more : List Event) :
    (logger.after events).after more = logger.after (events ++ more) := by
  unfold after shown
  rw [List.filter_append, List.append_assoc]

/-- The events of a batch whose first record is row `row`. -/
def Event.ofRows (row : Nat) (b : Batch) : List Event :=
  b.outputs.mapIdx (fun i output => renderedRecord (row + i) output.length) ++
    b.failure.toList.map fun e => renderFailed e.row e.cause.message

theorem Event.ofRows_cons (row : Nat) (text : String) (b : Batch) (tables : List String) :
    Event.ofRows row ⟨text :: b.outputs, b.failure, tables⟩ =
      [renderedRecord row text.length] ++ Event.ofRows (row + 1) b := by
  simp only [ofRows, List.mapIdx_cons, Nat.add_zero, List.cons_append, List.nil_append,
    Nat.add_assoc, Nat.add_comm 1]

theorem Event.ofRows_one (b : Batch) : Event.ofRows 1 b = Event.ofBatch b := by
  simp only [ofRows, ofBatch, Nat.add_comm 1]

namespace Logged

theorem run_tell {ε : Type} (e : Event) (logger : Logger) :
    (tell e : ExceptT ε Logged Unit).run.run logger = (.ok (), logger.after [e]) := by
  show (Except.ok (), if _ then _ else _) = _
  by_cases h : logger.threshold ≤ e.level <;> simp [Logger.after, shown, h]

theorem run_compile {source : String} {t : Template} (h : Template.compile source = .ok t)
    (logger : Logger) :
    (compile source).run.run logger = (.ok t, logger.after [.ofTemplate t]) := by
  rw [compile, h, run_bind]
  show (do tell (.ofTemplate t); return t : ExceptT ParseError Logged Template).run.run logger = _
  rw [run_bind, run_tell]
  rfl

/-- Rendering with a logger gives what rendering without one gives, and the logger is told of every
row. -/
theorem run_renderRows (t : Template) (d : Definition) (row : Nat) (records : List Record)
    (logger : Logger) :
    (renderRows t d row records).run.run logger =
      ((Batch.ofRecords t d row records).result,
        logger.after (Event.ofRows row (Batch.ofRecords t d row records))) := by
  induction records generalizing row logger with
  | nil =>
    show (Except.ok [], logger) = (Except.ok [], logger.after [])
    rw [Logger.after_nil]
  | cons record rest ih =>
    rw [Batch.result_cons, Batch.ofRecords, renderRows]
    cases (t.render record d).result with
    | error cause =>
      simp only
      rw [run_bind, run_tell]
      rfl
    | ok text =>
      simp only
      rw [run_bind, run_tell]
      simp only
      rw [run_bind, ih, Logger.after_append, Event.ofRows_cons]
      cases (Batch.ofRecords t d (row + 1) rest).result <;> rfl

/-- Reading and rendering with a logger gives what they give without one, and leaves the trace with
the logger. -/
theorem run_merge {source : String} {t : Template} (h : Template.compile source = .ok t)
    (d : Definition) (logger : Logger) :
    (merge source d).run.run logger = (.ok (t.renderAll d), logger.after (trace t d)) := by
  rw [merge, run_bind, run_compile h]
  show (Except.ok ((renderAll t d).run.run _).1, ((renderAll t d).run.run _).2) = _
  rw [renderAll, run_renderRows, Logger.after_append, Event.ofRows_one]
  rfl

end Logged

/-! ## What is shown -/

/-- Everything of a trace is shown where everything is asked for. -/
theorem shown_debug (events : List Event) : shown .debug events = events := by
  refine List.filter_eq_self.2 ?_
  intro e _
  cases e <;> rfl

/-- What is shown at a level is what is left of everything that happened. -/
theorem events_merge {source : String} {t : Template} (h : Template.compile source = .ok t)
    (d : Definition) (threshold : Level) :
    ((Logged.merge source d).run.run ⟨threshold, []⟩).2.events = shown threshold (trace t d) := by
  rw [Logged.run_merge h]
  rfl

/-! ## Outputs -/

/-- The events of rows that were rendered, the first of which is row 1. -/
def Event.ofTexts (texts : List String) : List Event :=
  texts.mapIdx fun i text => renderedRecord (i + 1) text.length

theorem ofBatch_of_ok {t : Template} {d : Definition} {texts : List String}
    (h : t.renderAll d = .ok texts) : Event.ofBatch (t.renderBatch d) = Event.ofTexts texts := by
  unfold Template.renderAll Batch.result at h
  cases hfailure : (t.renderBatch d).failure with
  | some e => rw [hfailure] at h; cases h
  | none =>
    rw [hfailure] at h
    cases h
    simp [Event.ofBatch, Event.ofTexts, hfailure]

/-- A failed batch has told of the rows in front of the one that fails, and of this one. -/
theorem ofBatch_of_error {t : Template} {d : Definition} {e : RenderError}
    (h : t.renderAll d = .error e) :
    ∃ texts, e.row = texts.length + 1 ∧ t.RendersAll d (d.vars.records.take texts.length) texts ∧
      Event.ofBatch (t.renderBatch d) =
        Event.ofTexts texts ++ [.renderFailed e.row e.cause.message] := by
  obtain ⟨htexts, hend⟩ := Batch.outputs_ofRecords (t := t) (d := d) 1 d.vars.records
  unfold Template.renderAll Batch.result at h
  change t.RendersAll d (d.vars.records.take (t.renderBatch d).outputs.length) _ at htexts
  change (match (t.renderBatch d).failure with | none => _ | some e => _) at hend
  cases hfailure : (t.renderBatch d).failure with
  | none => rw [hfailure] at h; cases h
  | some e' =>
    rw [hfailure] at h hend
    cases h
    refine ⟨(t.renderBatch d).outputs, ?_, htexts, ?_⟩
    · exact hend.trans (Nat.add_comm 1 _)
    · simp [Event.ofBatch, Event.ofTexts, hfailure]

/-- Reading and rendering give the same whatever is shown. Where everything is shown, it is one
event with the numbers of nodes and of blocks at all depths, one for every output with its length,
and in the end one for the failure if there is one; at every other level these events are shown
without the ones below it. -/
theorem merge_traced (source : String) (nodes : List Node) (h : parse source = .ok nodes)
    (d : Definition) :
    let t : Template := ⟨Piece.ofNodes nodes, source⟩
    let run (threshold : Level) := (Logged.merge source d).run.run ⟨threshold, []⟩
    let compiled : Event := .compiledTemplate nodes.length
      ((Node.partsIn nodes).countP (Node.isBlock .loop))
      ((Node.partsIn nodes).countP (Node.isBlock .conditional))
    (∀ threshold, (run threshold).1 = .ok (t.renderAll d)) ∧
    (∀ texts, t.renderAll d = .ok texts → texts.length = d.vars.records.length ∧
      (run .debug).2.events = compiled :: Event.ofTexts texts) ∧
    (∀ e, t.renderAll d = .error e → ∃ texts, e.row = texts.length + 1 ∧
      t.RendersAll d (d.vars.records.take texts.length) texts ∧
      (run .debug).2.events =
        compiled :: Event.ofTexts texts ++ [.renderFailed e.row e.cause.message]) ∧
    ∀ threshold, (run threshold).2.events =
      (run .debug).2.events.filter fun e => threshold ≤ e.level := by
  intro t run compiled
  have hcompile : Template.compile source = .ok t := by
    rw [Template.compile, h]
    rfl
  have hcompiled : Event.ofTemplate t = compiled := by
    obtain ⟨hloops, hconditionals⟩ := Piece.count_ofNodes nodes
    simp only [t, compiled, Event.ofTemplate, Piece.length_ofNodes, hloops, hconditionals]
  have hdebug : (run .debug).2.events = compiled :: Event.ofBatch (t.renderBatch d) := by
    rw [events_merge hcompile, shown_debug, trace, hcompiled]
  refine ⟨fun threshold => congrArg Prod.fst (Logged.run_merge hcompile d _), ?_, ?_, ?_⟩
  · intro texts htexts
    exact ⟨(Batch.result_eq_ok_iff.1 htexts).length_eq.symm, by rw [hdebug, ofBatch_of_ok htexts]⟩
  · intro e he
    obtain ⟨texts, hrow, htexts, hbatch⟩ := ofBatch_of_error he
    exact ⟨texts, hrow, htexts, by rw [hdebug, hbatch]; rfl⟩
  · intro threshold
    rw [hdebug, events_merge hcompile, trace, hcompiled]
    rfl

/-- The second row has no field `n`. Only this is shown at the level of warnings. -/
theorem merge_traced_failed :
    let source := "\x7b@ for x in t @\x7d\x7b\x7b n \x7d\x7d\x7b@ if n=\"é\" @\x7db\x7b@ end if @\x7d\x7b@ end for @\x7d"
    let d := Definition.ofRecords [⟨[("n", "é")]⟩, ⟨[]⟩] [("t", [⟨[]⟩, ⟨[]⟩])]
    let run (threshold : Level) := (Logged.merge source d).run.run ⟨threshold, []⟩
    let failed : Event := .renderFailed 2 "Failed expansion: context is missing field \x60n\x60"
    (run .warning).1 = .ok (.error ⟨2, .missingField "n"⟩) ∧
      (run .debug).2.events = [.compiledTemplate 1 1 1, .renderedRecord 1 4, failed] ∧
      (run .warning).2.events = [failed] := by
  intro source d run failed
  let nodes := [Node.block (.loop ⟨"x", ⟨"t", none⟩, none, false⟩)
    [.expansion ⟨[], "n"⟩, .block (.conditional ⟨⟨[], "n"⟩, .equal, .text "é"⟩) [.text "b"]]]
  have h : parse source = .ok nodes := by
    unfold source
    exact parse_of_within 40 rfl
  obtain ⟨hresult, -, herror, hlevels⟩ := merge_traced source nodes h d
  have he : Template.renderAll ⟨Piece.ofNodes nodes, source⟩ d = .error ⟨2, .missingField "n"⟩ := by
    rfl
  obtain ⟨texts, hrow, htexts, hevents⟩ := herror _ he
  have hlength : texts.length = 1 := (Nat.succ.inj hrow).symm
  rw [hlength] at htexts
  have htext : texts = ["ébéb"] := by
    have hfirst : (Batch.ofRecords ⟨Piece.ofNodes nodes, source⟩ d 1 _).result = .ok texts :=
      Batch.result_eq_ok_iff.2 htexts
    exact (Except.ok.inj hfirst).symm
  have hdebug : (run .debug).2.events = [.compiledTemplate 1 1 1, .renderedRecord 1 4, failed] := by
    rw [hevents, htext]
    rfl
  refine ⟨(hresult _).trans (congrArg Except.ok he), hdebug, ?_⟩
  rw [hlevels, hdebug]
  rfl

end MailMerge.Log

import SymbolicLogic.Proofs.Header.Markup
import SymbolicLogic.Rendering.Sink

/-!
# All sinks show the same text

A text, a list of runs and the commands for a terminal are made from one document, each
in one pass. They have the same characters in the same order. No run that is collected
is empty, and no two neighbours share a style. There is only one such list of runs for
given characters with given styles, so it does not matter in which pieces they were
written, nor how deeply styled parts stand inside each other.
-/

namespace SymbolicLogic

namespace TextRun

/-- No run is empty, and neighbours have different styles. -/
structure IsMerged (runs : List TextRun) : Prop where
  nonempty : ∀ run ∈ runs, run.text ≠ ""
  apart : (runs.map TextRun.style).IsChain (· ≠ ·)

variable {run : TextRun} {runs runs' : List TextRun}

theorem isMerged_nil : IsMerged [] :=
  ⟨nofun, .nil⟩

theorem isMerged_singleton (nonempty : run.text ≠ "") : IsMerged [run] :=
  ⟨List.forall_mem_singleton.mpr nonempty, .singleton _⟩

theorem IsMerged.tail (merged : IsMerged (run :: runs)) : IsMerged runs :=
  ⟨(List.forall_mem_cons.mp merged.nonempty).2, merged.apart.tail⟩

theorem exists_toList_eq_cons (nonempty : run.text ≠ "") :
    ∃ c rest, run.text.toList = c :: rest :=
  List.exists_cons_of_ne_nil (mt String.toList_eq_nil_iff.mp nonempty)

/-- The first mark of merged runs has the style of the first run. -/
theorem IsMerged.exists_marks_eq_cons (merged : IsMerged (run :: runs)) :
    ∃ c others, marks (run :: runs) = (run.style, c) :: others := by
  obtain ⟨c, rest, textEq⟩ :=
    exists_toList_eq_cons (merged.nonempty run List.mem_cons_self)
  exact ⟨c, _, by rw [marks_cons, textEq, List.map_cons, List.cons_append]⟩

/-- The first run ends where the style changes. -/
theorem IsMerged.span_marks (merged : IsMerged (run :: runs)) :
    (marks (run :: runs)).takeWhile (·.1 = run.style) =
        run.text.toList.map ((run.style, ·)) ∧
      (marks (run :: runs)).dropWhile (·.1 = run.style) = marks runs := by
  have own : ∀ mark ∈ run.text.toList.map ((run.style, ·)),
      decide (mark.1 = run.style) = true := by simp
  have ends : (marks runs).takeWhile (·.1 = run.style) = [] ∧
      (marks runs).dropWhile (·.1 = run.style) = marks runs := by
    cases runs with
    | nil => exact ⟨rfl, rfl⟩
    | cons next rest =>
        obtain ⟨c, others, marksEq⟩ := merged.tail.exists_marks_eq_cons
        have changes : next.style ≠ run.style :=
          Ne.symm (List.isChain_cons_cons.mp merged.apart).1
        simp [marksEq, changes]
  rw [marks_cons, List.takeWhile_append_of_pos own, List.dropWhile_append_of_pos own,
    ends.1, ends.2, List.append_nil]
  exact ⟨rfl, rfl⟩

/-- Two merged lists of runs with the same characters in the same styles are equal. -/
theorem IsMerged.eq_of_marks_eq
    (merged : IsMerged runs)
    (merged' : IsMerged runs')
    (same : marks runs = marks runs') : runs = runs' := by
  induction runs generalizing runs' with
  | nil =>
      cases runs' with
      | nil => rfl
      | cons run' rest' =>
          obtain ⟨c, others, marksEq⟩ := merged'.exists_marks_eq_cons
          rw [marksEq] at same
          cases same
  | cons run rest inductionHypothesis =>
      cases runs' with
      | nil =>
          obtain ⟨c, others, marksEq⟩ := merged.exists_marks_eq_cons
          rw [marksEq] at same
          cases same
      | cons run' rest' =>
          obtain ⟨c, others, marksEq⟩ := merged.exists_marks_eq_cons
          obtain ⟨c', others', marksEq'⟩ := merged'.exists_marks_eq_cons
          have style : run.style = run'.style := by
            rw [marksEq, marksEq'] at same
            exact (Prod.mk.inj (List.cons.inj same).1).1
          obtain ⟨taken, dropped⟩ := merged.span_marks
          obtain ⟨taken', dropped'⟩ := merged'.span_marks
          rw [same, style, taken'] at taken
          rw [same, style, dropped'] at dropped
          have text : run.text = run'.text := by
            refine String.toList_injective (List.map_injective_iff.mpr ?_ taken).symm
            exact fun _ _ same => (Prod.mk.inj same).2
          obtain rfl : run = run' := by
            cases run; cases run'; simp_all
          rw [inductionHypothesis merged.tail merged'.tail dropped.symm]

/-- Runs stay merged when a run is pushed. -/
theorem IsMerged.push (merged : IsMerged runs) (run : TextRun) :
    IsMerged (push run runs) := by
  unfold TextRun.push
  split
  · exact merged
  · next nonempty =>
      split
      · exact isMerged_singleton nonempty
      · next next rest =>
          obtain ⟨-, others⟩ := List.forall_mem_cons.mp merged.nonempty
          split
          · exact ⟨List.forall_mem_cons.mpr ⟨by simp [nonempty], others⟩, merged.apart⟩
          · next changes =>
              exact ⟨List.forall_mem_cons.mpr ⟨nonempty, merged.nonempty⟩,
                .cons_cons changes merged.apart⟩

/-- Merging leaves merged runs. -/
theorem isMerged_merge (runs : List TextRun) : IsMerged (merge runs) := by
  induction runs with
  | nil => exact isMerged_nil
  | cons run runs inductionHypothesis => exact inductionHypothesis.push run

theorem marks_extend (runs : List TextRun) (run : TextRun) :
    marks (extend runs run) = marks runs ++ marks [run] := by
  unfold extend
  split
  · next empty => simp [marks_cons, empty]
  · rcases List.eq_nil_or_concat' runs with rfl | ⟨front, last, rfl⟩
    · rfl
    · rw [List.getLast?_concat, List.dropLast_concat]
      dsimp only
      split
      · next same => simp [marks_cons, same]
      · exact marks_append _ _

theorem IsMerged.extend (merged : IsMerged runs) (run : TextRun) :
    IsMerged (extend runs run) := by
  unfold TextRun.extend
  split
  · exact merged
  · next nonempty =>
      rcases List.eq_nil_or_concat' runs with rfl | ⟨front, last, rfl⟩
      · exact isMerged_singleton nonempty
      · obtain ⟨others, -⟩ := List.forall_mem_append.mp merged.nonempty
        have apart := merged.apart
        rw [List.getLast?_concat, List.dropLast_concat]
        rw [List.map_append] at apart
        dsimp only
        split
        · refine ⟨List.forall_mem_append.mpr ⟨others, by simp [nonempty]⟩, ?_⟩
          rw [List.map_append]
          exact apart
        · next changes =>
            refine ⟨List.forall_mem_append.mpr ⟨merged.nonempty, by simp [nonempty]⟩, ?_⟩
            rw [List.map_append, List.map_append]
            refine List.isChain_append.mpr ⟨apart, .singleton _, ?_⟩
            simpa using changes

end TextRun

/-- The pieces of a document inside parts of which the innermost one has the style. -/
def Document.pieces (style : Style) : Document -> List TextRun
  | .empty => []
  | .bare text => [⟨style, text⟩]
  | .append left right => left.pieces style ++ right.pieces style
  | .styled style body => body.pieces style

namespace Collector

variable {collector : Collector}

/-- One signal leaves the runs merged. -/
theorem isMerged_receive (merged : TextRun.IsMerged collector.runs) (signal : Signal) :
    TextRun.IsMerged (collector.receive signal).runs := by
  cases signal with
  | enter style => exact merged
  | leave => exact merged
  | write text => exact merged.extend _

/-- What is collected is merged. -/
theorem isMerged_receiveAll
    (merged : TextRun.IsMerged collector.runs)
    (signals : List Signal) :
    TextRun.IsMerged (collector.receiveAll signals).runs := by
  induction signals generalizing collector with
  | nil => exact merged
  | cons signal signals inductionHypothesis =>
      exact inductionHypothesis (isMerged_receive merged signal)

/-- Signals are received one after the other. -/
theorem receiveAll_append
    (collector : Collector)
    (first second : List Signal) :
    collector.receiveAll (first ++ second) =
      (collector.receiveAll first).receiveAll second :=
  List.foldl_append

/-- A document adds its pieces, and every style that begins in it ends in it. -/
theorem receiveAll_signals (collector : Collector) (document : Document) :
    (collector.receiveAll document.signals).styles = collector.styles ∧
      TextRun.marks (collector.receiveAll document.signals).runs =
        TextRun.marks collector.runs ++
          TextRun.marks (document.pieces collector.style) := by
  induction document generalizing collector with
  | empty => exact ⟨rfl, (List.append_nil _).symm⟩
  | bare text => exact ⟨rfl, TextRun.marks_extend _ _⟩
  | append left right inLeft inRight =>
      obtain ⟨styles, marks⟩ := inLeft collector
      obtain ⟨styles', marks'⟩ := inRight (collector.receiveAll left.signals)
      have style : (collector.receiveAll left.signals).style = collector.style := by
        rw [Collector.style, styles, Collector.style]
      rw [Document.signals, receiveAll_append, styles', marks', marks, style,
        Document.pieces, TextRun.marks_append, List.append_assoc]
      exact ⟨styles, rfl⟩
  | styled style body inBody =>
      obtain ⟨styles, marks⟩ := inBody (collector.receive (.enter style))
      have whole : collector.receiveAll (Document.styled style body).signals =
          ((collector.receive (.enter style)).receiveAll body.signals).receive
            .leave :=
        receiveAll_append (collector.receive (.enter style)) body.signals [.leave]
      rw [whole]
      exact ⟨congrArg List.tail styles, marks⟩

end Collector

namespace Document

/-- The runs of a document are its pieces, merged. -/
theorem runs_eq_merge (document : Document) :
    document.runs = TextRun.merge (document.pieces .plain) := by
  refine TextRun.IsMerged.eq_of_marks_eq
    (Collector.isMerged_receiveAll TextRun.isMerged_nil _) (TextRun.isMerged_merge _) ?_
  rw [TextRun.marks_merge]
  exact (Collector.receiveAll_signals ⟨[], []⟩ document).2

theorem foldl_text (start : String) (document : Document) (style : Style) :
    document.signals.foldl (fun text signal => text ++ signal.text) start =
      start ++ TextRun.plainText (document.pieces style) := by
  induction document generalizing start style with
  | empty => simp [signals, pieces]
  | bare text => simp [signals, pieces, Signal.text]
  | append left right inLeft inRight =>
      rw [signals, List.foldl_append, inLeft start style, inRight _ style, pieces,
        TextRun.plainText_append, String.append_assoc]
  | styled inner body inBody =>
      rw [signals, List.cons_append, List.foldl_cons, List.foldl_append, inBody _ inner]
      simp [pieces, Signal.text]

/-- The text of a document is that of its pieces, whatever their styles are. -/
theorem plainText_eq (document : Document) (style : Style) :
    document.plainText = TextRun.plainText (document.pieces style) := by
  rw [plainText, foldl_text _ _ style, String.empty_append]

/-- A terminal shows the text of the document. -/
theorem visibleText_commands (document : Document) (style : Style) :
    Command.visibleText document.commands =
      TextRun.plainText (document.pieces style) := by
  rw [commands]
  induction document generalizing style with
  | empty => rfl
  | bare text => simp [signals, pieces, Signal.command, Command.visibleText]
  | append left right inLeft inRight =>
      rw [signals, List.map_append, Command.visibleText_append, inLeft style,
        inRight style, pieces, TextRun.plainText_append]
  | styled inner body inBody =>
      simp [signals, pieces, Signal.command, Command.visibleText, inBody inner]

theorem pieces_ofPieces (pieces : List TextRun) :
    (ofPieces pieces).pieces .plain = pieces := by
  induction pieces with
  | nil => rfl
  | cons piece pieces inductionHypothesis =>
      have own : (ofPiece piece).pieces .plain = [piece] := by
        rw [ofPiece]
        split
        · next bare => rw [Document.pieces, ← bare]
        · rfl
      change (ofPiece piece).pieces .plain ++ (ofPieces pieces).pieces .plain = _
      rw [own, inductionHypothesis, List.singleton_append]

/-- Every piece is painted and reset on its own. -/
theorem commands_ofPieces (pieces : List TextRun) :
    (ofPieces pieces).commands = Command.ofPieces pieces := by
  induction pieces with
  | nil => rfl
  | cons piece pieces inductionHypothesis =>
      have own : (ofPiece piece).commands = Command.ofPiece piece := by
        rw [ofPiece, Command.ofPiece]
        split <;> rfl
      have whole : (ofPieces (piece :: pieces)).commands =
          (ofPiece piece).commands ++ (ofPieces pieces).commands :=
        List.map_append
      rw [whole, own, inductionHypothesis, Command.ofPieces, Command.ofPieces,
        List.flatMap_cons]

end Document

/-- However the pieces of an expression are put together, the sinks make of them its text
and its runs, and a terminal shows the text. Among these documents is the one in which the
pieces stand one after the other, each painted on its own. The runs show the text, too. None
is empty, and neighbours have different styles. -/
theorem Expression.renderings_agree (expression : Expression) :
    (∀ document : Document, document.pieces .plain = expression.pieces ->
      document.plainText = expression.text ∧
        document.runs = expression.runs ∧
        Command.visibleText document.commands = expression.text) ∧
    expression.document.pieces .plain = expression.pieces ∧
    expression.document.commands = Command.ofPieces expression.pieces ∧
    TextRun.plainText expression.runs = expression.text ∧
    Command.visibleText (Command.ofPieces expression.pieces) = expression.text ∧
    TextRun.IsMerged expression.runs := by
  refine ⟨?_, Document.pieces_ofPieces _, Document.commands_ofPieces _,
    expression.plainText_runs, Command.visibleText_ofPieces _, TextRun.isMerged_merge _⟩
  intro document pieces
  refine ⟨?_, ?_, ?_⟩
  · rw [document.plainText_eq .plain, pieces, text]
  · rw [document.runs_eq_merge, pieces, runs]
  · rw [document.visibleText_commands .plain, pieces, text]

/-- The letter `P` and a letter without text, joined by a conjunction. -/
def Expression.halfWritten : Expression :=
  .formula (.plain (.binary ⟨"∧", .connective⟩ .conjunction
    (.leaf .letter ⟨"P", .sentenceLetter⟩) (.leaf .letter ⟨"", .sentenceLetter⟩) none))

/-- Styled parts may stand inside others, and those without text leave no run. -/
theorem Expression.renderings_agree_halfWritten :
    let document : Document :=
      .append (.styled .operator (.append (.styled .letter (.bare "P"))
        (.append (.styled .plain (.bare " ")) (.bare "∧"))))
        (.append (.bare " ") (.styled .term (.styled .letter (.bare ""))))
    document.pieces .plain = halfWritten.pieces ∧
      document.plainText = "P ∧ " ∧
      document.runs =
        [⟨.letter, "P"⟩, ⟨.plain, " "⟩, ⟨.operator, "∧"⟩, ⟨.plain, " "⟩] ∧
      Command.visibleText document.commands = "P ∧ " := by
  intro document
  have written : document.pieces .plain = halfWritten.pieces := by decide
  obtain ⟨text, runs, shown⟩ := halfWritten.renderings_agree.1 document written
  have textEq : halfWritten.text = "P ∧ " := by decide
  have runsEq : halfWritten.runs =
      [⟨.letter, "P"⟩, ⟨.plain, " "⟩, ⟨.operator, "∧"⟩, ⟨.plain, " "⟩] := by decide
  exact ⟨written, text.trans textEq, runs.trans runsEq, shown.trans textEq⟩

end SymbolicLogic

/-
Reading undoes writing. However its names are written, a well-formed template is cut into tokens
that spell its nodes, and so is read as those nodes.
-/
import MailMerge.Proofs.Markup.Completeness
import MailMerge.Proofs.Markup.Names
import MailMerge.Proofs.Number.Decimal

namespace MailMerge.Markup

open MailMerge.Text MailMerge.Number

/-! ## Words -/

/-- One space in front of a word. -/
theorem scans_blank {cs : List Char} (h : StartsWord cs) :
    Scans .tag (' ' :: cs) [.blank] .tag cs := by
  have hspace : isBlank ' ' = true := rfl
  obtain ⟨c, rest, rfl, hblank, hat, -⟩ := h
  refine Scans.of_rules (x := ⟨.blank, [' '], c :: rest⟩) ?_
  simp [Mode.rules, Mode.skip, Rule.closing, Rule.fixed, Rule.blank, leadingBlanks, dropBlanks, hspace,
    hblank, Ne.symm hat]

theorem startsWord_keyword (k : Keyword) : StartsWord k.word.toList := by
  cases k <;> exact ⟨_, _, rfl, rfl, by decide, by decide⟩

theorem scans_keyword (k : Keyword) (rest : List Char) :
    Scans .tag (k.word.toList ++ ' ' :: rest) [.keyword k] .tag (' ' :: rest) := by
  have hspan : tagUnits.span (k.word.toList ++ ' ' :: rest) = (k.word.toList, ' ' :: rest) := by
    cases k <;> rfl
  have hquote : (k.word.toList ++ ' ' :: rest).head? ≠ some '\x60' := by
    cases k <;> (intro h; cases h)
  have hword : Bracket.tag.word k.word.toList = .keyword k := by
    show Rule.wordOf _ = _
    rw [Rule.wordOf, String.ofList_toList]
    cases k <;> rfl
  have hscans := Bracket.scans_word .tag ((startsWord_keyword k).append _) hquote hspan
    (by cases k <;> decide)
  rwa [hword] at hscans

theorem startsWord_operator (op : Comparator) : StartsWord op.symbol.toList := by
  cases op <;> exact ⟨_, _, rfl, rfl, by decide, by decide⟩

theorem scans_operator (op : Comparator) (rest : List Char) :
    Scans .tag (op.symbol.toList ++ ' ' :: rest) [.operator op] .literal (' ' :: rest) := by
  have hrules : Mode.tag.rules.findSome? (· (Mode.tag.skip (op.symbol.toList ++ ' ' :: rest))) =
      some ⟨.operator op, op.symbol.toList, ' ' :: rest⟩ := by
    cases op <;> rfl
  exact Scans.of_rules hrules

/-! ## Literals -/

theorem readNumber_unsigned {n : Nat} (h : n ≤ maxUnsigned) :
    Literal.readNumber (String.ofList (Nat.toDigits 10 n)) = .ok (some (.unsigned n)) := by
  have hplus : (Nat.toDigits 10 n).head? ≠ some '+' := by
    intro hhead
    have hdigit := Nat.isDigit_of_mem_toDigits (b := 10) (n := n) (by decide) (by decide)
      (List.mem_of_mem_head? hhead)
    cases hdigit
  have hread : Literal.read (String.ofList (Nat.toDigits 10 n)) .unsigned =
      .ok (some (.unsigned n)) := by
    rw [Literal.read, readUnsigned_toDigits h]
    rfl
  unfold Literal.readNumber
  rw [String.toList_ofList, if_neg hplus, Literal.readFirst, hread]
  rfl

theorem readNumber_signed {z : Int} (h : minSigned ≤ z ∧ z ≤ maxSigned) :
    Literal.readNumber
      (String.ofList ((if z < 0 then '-' else '+') :: Nat.toDigits 10 z.natAbs)) =
        .ok (some (.signed z)) := by
  have hsigned := readSigned_toDigits h
  unfold Literal.readNumber
  rw [String.toList_ofList]
  by_cases hz : z < 0
  · rw [if_pos hz] at hsigned ⊢
    have hread : Literal.read (String.ofList ('-' :: Nat.toDigits 10 z.natAbs)) .unsigned =
        .ok none := by
      rw [Literal.read, readUnsigned_minus]
      rfl
    have hread' : Literal.read (String.ofList ('-' :: Nat.toDigits 10 z.natAbs)) .signed =
        .ok (some (.signed z)) := by
      rw [Literal.read, hsigned]
      rfl
    rw [if_neg (by simp), Literal.readFirst, hread]
    show Literal.readFirst _ [.signed, .float] = _
    rw [Literal.readFirst, hread']
    rfl
  · rw [if_neg hz] at hsigned ⊢
    have hread : Literal.read (String.ofList ('+' :: Nat.toDigits 10 z.natAbs)) .signed =
        .ok (some (.signed z)) := by
      rw [Literal.read, hsigned]
      rfl
    rw [if_pos (by simp), Literal.readFirst, hread]
    rfl

/-- A decimal in front of other text is the token of its value. -/
theorem number_append {cs rest : List Char} {d : DecimalSpelling} {value : Literal}
    (hspan : spanDecimal (cs ++ rest) = some (d, rest))
    (hread : Literal.readNumber (String.ofList cs) = .ok (some value)) :
    number (cs ++ rest) = some (.ok ⟨.literal value, cs, rest⟩) := by
  simp [number, hspan, hread]

/-- A number with a space behind it, which starts neither with white space nor with a quote. -/
theorem scans_number {c : Char} {cs rest : List Char} {d : DecimalSpelling} {value : Literal}
    (hlayout : isLayout c = false) (hc : c ≠ '"')
    (hspan : spanDecimal (c :: cs ++ ' ' :: rest) = some (d, ' ' :: rest))
    (hread : Literal.readNumber (String.ofList (c :: cs)) = .ok (some value)) :
    Scans .literal (' ' :: c :: cs ++ ' ' :: rest) [.literal value] .tag (' ' :: rest) := by
  have hskip : Mode.literal.skip (' ' :: c :: cs ++ ' ' :: rest) = c :: cs ++ ' ' :: rest := by
    simp [Mode.skip, List.dropWhile, hlayout, show isLayout ' ' = true from rfl]
  have hrules : Mode.literal.rules.findSome? (· (c :: cs ++ ' ' :: rest)) = none := by
    simp [Mode.rules, Rule.quotedText, Units.spanQuoted, hc]
  have hscan : Mode.literal.scan (Mode.literal.skip (' ' :: c :: cs ++ ' ' :: rest)) =
      .ok ⟨.literal value, c :: cs, ' ' :: rest⟩ := by
    rw [hskip]
    unfold Mode.scan
    rw [hrules]
    simp only [if_true, number_append hspan hread]
  exact .cons hscan .nil

/-- A literal with a space in front of it and behind it. -/
theorem scans_literal {value : Literal} (h : value.InRange) (hkind : value.kind ≠ .float)
    (rest : List Char) :
    Scans .literal (' ' :: printLiteral value ++ ' ' :: rest) [.literal value] .tag (' ' :: rest) := by
  cases value with
  | unsigned n =>
    obtain ⟨c, cs, hcs⟩ := List.exists_cons_of_ne_nil (@Nat.toDigits_ne_nil n 10)
    have hdigit : c.isDigit = true :=
      Nat.isDigit_of_mem_toDigits (by decide) (by decide) (hcs ▸ List.mem_cons_self)
    have hlayout : isLayout c = false := by
      cases hc : isLayout c with
      | false => rfl
      | true =>
        simp only [isLayout, List.mem_cons, List.not_mem_nil, or_false, decide_eq_true_eq] at hc
        rcases hc with rfl | rfl | rfl | rfl <;> cases hdigit
    have hquote : c ≠ '"' := by
      rintro rfl
      cases hdigit
    have hspan := spanDecimal_of_spanSign (spanSign_toDigits n (' ' :: rest))
    have hread := readNumber_unsigned h
    show Scans .literal (' ' :: (Nat.repr n).toList ++ ' ' :: rest) _ _ _
    rw [Nat.toList_repr]
    rw [hcs] at hspan hread ⊢
    exact scans_number hlayout hquote hspan hread
  | signed z =>
    show Scans .literal
      (' ' :: (if z < 0 then '-' else '+') :: (Nat.repr z.natAbs).toList ++ ' ' :: rest) _ _ _
    rw [Nat.toList_repr]
    have hread := readNumber_signed h
    by_cases hz : z < 0
    · rw [if_pos hz] at hread ⊢
      exact scans_number rfl (by decide) (@spanDecimal_of_spanSign _ rest .minus _ rfl) hread
    · rw [if_neg hz] at hread ⊢
      exact scans_number rfl (by decide) (@spanDecimal_of_spanSign _ rest .plus _ rfl) hread
  | float x => exact (hkind rfl).elim
  | text s =>
    have hquoted := @Units.spanQuoted_enclose stringUnits '"' s.toList (' ' :: rest) (by decide)
      ⟨by decide, by decide⟩ fun c next => by simp [stringUnits]
    have hunescape := @unescape_escape (escapedIn '"') (by decide) s.toList
    have hrules : Mode.literal.rules.findSome? (· (Mode.literal.skip
        (' ' :: enclose '"' s.toList ++ ' ' :: rest))) =
          some ⟨.literal (.text s), enclose '"' s.toList, ' ' :: rest⟩ := by
      have hskip : Mode.literal.skip (' ' :: enclose '"' s.toList ++ ' ' :: rest) =
          enclose '"' s.toList ++ ' ' :: rest := rfl
      rw [hskip]
      simp only [Mode.rules, List.findSome?_cons, Rule.quotedText, hquoted, Option.map_some,
        hunescape, String.ofList_toList]
      rfl
    exact Scans.of_rules hrules

/-! ## Tags -/

section

variable {cs : List Char} (rest : List Char)

theorem Comparison.Written.startsWord {c : Comparison} (h : c.Written cs) (hc : c.WellFormed) :
    StartsWord cs := by
  obtain ⟨subject, hsubject, rfl⟩ := h
  rw [List.append_assoc]
  exact (WrittenPath.startsWord hsubject hc.1.1 hc.1.2).append _

theorem Comparison.Written.scans {c : Comparison} (h : c.Written cs) (hc : c.WellFormed)
    (hkind : c.literal.kind ≠ .float) :
    ∃ kinds, c.Spelled kinds ∧ Scans .tag (cs ++ ' ' :: rest) kinds .tag (' ' :: rest) := by
  obtain ⟨subject, hsubject, rfl⟩ := h
  refine ⟨c.subject.tokens ++ [.blank] ++ [.operator c.op, .literal c.literal],
    ⟨[.blank], .inr rfl, rfl⟩, ?_⟩
  have hpath : ∀ more, Scans .tag (subject ++ ' ' :: more) c.subject.tokens .tag (' ' :: more) := by
    intro more
    exact hsubject.scans hc.1.1 hc.1.2 (Bracket.span_of_mem .tag (by simp) more)
  have hblank := scans_blank ((startsWord_operator c.op).append
    (' ' :: printLiteral c.literal ++ ' ' :: rest))
  have hoperator := (scans_operator c.op (printLiteral c.literal ++ ' ' :: rest)).trans
    (scans_literal hc.2 hkind rest)
  have hscans := ((hpath _).trans hblank).trans hoperator
  simpa only [List.append_assoc, List.cons_append, List.nil_append] using hscans

/-- A name and what leads to the table of a loop. -/
theorem scans_loopTokens (other : Bool) {name : String} {table : List Char} (hname : name ≠ "")
    (h : Bracket.tag.WritesName name cs) (htable : StartsWord table) :
    Scans .tag ((if other then "other ".toList else []) ++ cs ++ " in ".toList ++ table)
      (loopTokens other name) .tag table := by
  have hin : Scans .tag (" in ".toList ++ table) [.blank, .keyword .inWord, .blank] .tag table :=
    ((scans_blank ((startsWord_keyword .inWord).append (' ' :: table))).trans
      (scans_keyword .inWord table)).trans (scans_blank htable)
  have hsegment : Scans .tag (cs ++ " in ".toList ++ table)
      ([.segment name] ++ [.blank, .keyword .inWord, .blank]) .tag table := by
    rw [List.append_assoc]
    exact (h.scans hname (Bracket.span_of_mem .tag (c := ' ') (by simp) _)).trans hin
  cases other with
  | false => exact hsegment
  | true =>
    have hstart : StartsWord (cs ++ " in ".toList ++ table) := by
      rw [List.append_assoc]
      exact (h.startsWord hname).append _
    have hother : Scans .tag ("other ".toList ++ (cs ++ " in ".toList ++ table))
        [.keyword .otherWord, .blank] .tag (cs ++ " in ".toList ++ table) :=
      (scans_keyword .otherWord _).trans (scans_blank hstart)
    simpa [loopTokens, nameTokens] using hother.trans hsegment

theorem LoopHead.Written.startsWord {h : LoopHead} (hw : h.Written cs) (hh : h.WellFormed) :
    StartsWord cs := by
  obtain ⟨name, lookup, condition, hname, -, -, rfl⟩ := hw
  cases h.other with
  | false => exact (((hname.startsWord hh.1).append _).append _).append _
  | true => exact ⟨'o', _, rfl, rfl, by decide, by decide⟩

theorem LoopHead.Written.scans {h : LoopHead} (hw : h.Written cs) (hh : h.WellFormed)
    (hkind : ∀ c ∈ h.condition, c.literal.kind ≠ .float) :
    ∃ kinds, h.Spelled kinds ∧ Scans .tag (cs ++ ' ' :: rest) kinds .tag (' ' :: rest) := by
  obtain ⟨name, table, condition, other⟩ := h
  obtain ⟨written, lookup, text, hname, hlookup, hcondition, rfl⟩ := hw
  have htable : ∀ more, Scans .tag
      ((if other then "other ".toList else []) ++ written ++ " in ".toList ++ (lookup ++ ' ' :: more))
      (loopTokens other name ++ table.tokens) .tag (' ' :: more) := by
    intro more
    have hleft := scans_loopTokens other hh.1 hname ((hlookup.startsWord hh.2.1).append (' ' :: more))
    exact hleft.trans (hlookup.scans hh.2.1 (Bracket.span_of_mem .tag (by simp) more))
  cases condition with
  | none =>
    cases hcondition
    refine ⟨loopTokens other name ++ table.tokens, rfl, ?_⟩
    rw [List.append_nil, List.append_assoc _ lookup]
    exact htable rest
  | some c =>
    obtain ⟨condition, hwritten, rfl⟩ := hcondition
    have hc := hh.2.2 c rfl
    obtain ⟨kinds, hspelled, hscans⟩ := hwritten.scans rest hc (hkind c rfl)
    refine ⟨_, ⟨kinds, hspelled, rfl⟩, ?_⟩
    have hwhere : Scans .tag (" where ".toList ++ (condition ++ ' ' :: rest))
        [.blank, .keyword .whereWord, .blank] .tag (condition ++ ' ' :: rest) :=
      ((scans_blank ((startsWord_keyword .whereWord).append _)).trans
        (scans_keyword .whereWord _)).trans (scans_blank ((hwritten.startsWord hc).append _))
    have hall := (htable ("where ".toList ++ (condition ++ ' ' :: rest))).trans
      (hwhere.trans hscans)
    simp only [List.append_assoc] at hall ⊢
    exact hall

/-- The literals that a tag compares with. -/
def Tag.literals : Tag → List Literal
  | .loop h => h.condition.toList.map (·.literal)
  | .conditional c => [c.literal]

/-- The brackets of a tag and its first word. -/
theorem scans_inTag (kind : BlockKind) {kinds : List TokenKind} (hcs : StartsWord cs)
    (h : Scans .tag (cs ++ " @\x7d".toList ++ rest) kinds .tag (" @\x7d".toList ++ rest)) :
    Scans .text (inTag (kind.word.toList ++ ' ' :: cs) ++ rest)
      ([.openTag, .keyword kind.keyword, .blank] ++ kinds ++ [.closeTag]) .text rest := by
  have hstart := Bracket.scans_start .tag
    ((startsWord_keyword kind.keyword).append (' ' :: (cs ++ " @\x7d".toList ++ rest)))
  have hword := (scans_keyword kind.keyword (cs ++ " @\x7d".toList ++ rest)).trans
    (scans_blank ((hcs.append _).append _))
  have hclose : Scans .tag (" @\x7d".toList ++ rest) [.closeTag] .text rest :=
    Bracket.scans_close .tag rest
  have hscans := (hstart.trans hword).trans (h.trans hclose)
  simpa [inTag, Bracket.start, BlockKind.word] using hscans

theorem Tag.Written.scans {t : Tag} (h : t.Written cs) (ht : t.WellFormed)
    (hkind : ∀ value ∈ t.literals, value.kind ≠ .float) :
    ∃ kinds, t.Spelled kinds ∧ Scans .text (inTag cs ++ rest) kinds .text rest := by
  obtain ⟨head, rfl, hhead⟩ := h
  cases t with
  | loop h =>
    have hkind : ∀ c ∈ h.condition, c.literal.kind ≠ .float := by
      intro c hc
      exact hkind c.literal (List.mem_map.2 ⟨c, by simpa using hc, rfl⟩)
    obtain ⟨kinds, hspelled, hscans⟩ := hhead.scans ('@' :: '}' :: rest) ht hkind
    exact ⟨_, ⟨kinds, rfl, hspelled⟩,
      scans_inTag rest .loop (hhead.startsWord ht) (by simpa using hscans)⟩
  | conditional test =>
    obtain ⟨kinds, hspelled, hscans⟩ :=
      hhead.scans ('@' :: '}' :: rest) ht (hkind test.literal List.mem_cons_self)
    exact ⟨_, ⟨kinds, rfl, hspelled⟩,
      scans_inTag rest .conditional (hhead.startsWord ht) (by simpa using hscans)⟩

theorem scans_printEnd (kind : BlockKind) :
    Scans .text (printEnd kind ++ rest) kind.endSpelling .text rest := by
  have hend : Scans .text ("\x7b@ end ".toList ++ (kind.word.toList ++ " @\x7d".toList ++ rest))
      [.openTag, .keyword .endWord] .tag (' ' :: (kind.word.toList ++ " @\x7d".toList ++ rest)) :=
    (Bracket.scans_start .tag ((startsWord_keyword .endWord).append _)).trans
      (scans_keyword .endWord _)
  have hkind : Scans .tag (' ' :: (kind.word.toList ++ " @\x7d".toList ++ rest))
      [.blank, .keyword kind.keyword] .tag (" @\x7d".toList ++ rest) := by
    rw [List.append_assoc]
    exact (scans_blank ((startsWord_keyword kind.keyword).append _)).trans
      (scans_keyword kind.keyword _)
  have hclose : Scans .tag (" @\x7d".toList ++ rest) [.closeTag] .text rest :=
    Bracket.scans_close .tag rest
  simpa [printEnd, inTag, BlockKind.endSpelling] using (hend.trans hkind).trans hclose

/-! ## Nodes -/

/-- Plain text ends where a bracket opens. -/
theorem span_start (b : Bracket) : textUnits.span (b.start.1 ++ rest) = ([], b.start.1 ++ rest) := by
  cases b <;> exact Units.span_of_not_plain (by decide) rfl

theorem scans_text {value : String} (hvalue : value ≠ "") (hrest : textUnits.span rest = ([], rest)) :
    Scans .text (escape escapedInText value.toList ++ rest) [.text value] .text rest := by
  have hspan : textUnits.span (escape escapedInText value.toList ++ rest) =
      (escape escapedInText value.toList, rest) := by
    refine Units.span_escape ?_ ?_ hrest
    · intro c _ hc
      exact hc
    · intro c _ hc
      simp only [escapedInText, List.mem_cons, List.not_mem_nil, or_false, decide_eq_false_iff_not,
        not_or] at hc
      exact ⟨hc.1, fun next => by simp [textUnits, hc]⟩
  have hne : escape escapedInText value.toList ≠ [] := by
    rw [Ne, escape_eq_nil_iff, String.toList_eq_nil_iff]
    exact hvalue
  obtain ⟨c, tail, hcs⟩ := List.exists_cons_of_ne_nil hne
  have hbrace : c ≠ '{' := by
    rcases head?_escape (c := c) (by rw [hcs]; rfl) with rfl | ⟨hescaped, -⟩
    · decide
    · rintro rfl
      cases hescaped
  have hunescape := @unescape_escape escapedInText (by decide) value.toList
  have hrules : Mode.text.rules.findSome?
      (· (Mode.text.skip (escape escapedInText value.toList ++ rest))) =
        some ⟨.text value, escape escapedInText value.toList, rest⟩ := by
    have hrun := @Rule.run_eq_some textUnits (fun spelling => .text (String.ofList (unescape spelling)))
      _ _ _ hspan hne
    rw [hunescape, String.ofList_toList] at hrun
    rw [hcs, List.cons_append] at hrun ⊢
    simp [Mode.rules, Mode.skip, Rule.opening, Rule.fixed, hrun, Ne.symm hbrace]
  exact Scans.of_rules hrules

end

mutual

/-- The literals that a node compares with. -/
def Node.literals : Node → List Literal
  | .text _ | .expansion _ => []
  | .block tag body => tag.literals ++ Node.allLiterals body

/-- The literals that some nodes compare with, in their order. -/
def Node.allLiterals : List Node → List Literal
  | [] => []
  | node :: nodes => node.literals ++ Node.allLiterals nodes

end

/-- Plain text also ends in front of any other node. -/
theorem Node.Written.span {node : Node} {cs : List Char} (h : node.Written cs)
    (hnode : ¬ node.isText) (rest : List Char) :
    textUnits.span (cs ++ rest) = ([], cs ++ rest) := by
  cases node with
  | text value => exact (hnode rfl).elim
  | expansion e =>
    rw [Node.Written] at h
    obtain ⟨inside, -, rfl⟩ := h
    exact span_start _ .expansion
  | block tag body =>
    rw [Node.Written] at h
    obtain ⟨head, inside, -, -, rfl⟩ := h
    simp only [inTag, List.append_assoc]
    exact span_start _ .tag

mutual

theorem Node.Written.scans : ∀ {node : Node} {cs rest : List Char}, node.Written cs →
    node.WellFormed → (∀ value ∈ node.literals, value.kind ≠ .float) →
      (node.isText → textUnits.span rest = ([], rest)) →
        ∃ kinds, node.Spelled kinds ∧ Scans .text (cs ++ rest) kinds .text rest
  | .text value, cs, rest, h, hnode, _, hrest => by
    rw [Node.Written] at h
    rw [Node.WellFormed] at hnode
    subst h
    exact ⟨_, by rw [Node.Spelled], scans_text rest hnode (hrest rfl)⟩
  | .expansion e, cs, rest, h, hnode, _, _ => by
    rw [Node.Written] at h
    rw [Node.WellFormed] at hnode
    obtain ⟨inside, hinside, rfl⟩ := h
    have hstart : Scans .text (inExpansion inside ++ rest) [.openExpansion] .expansion
        (inside ++ " \x7d\x7d".toList ++ rest) := by
      simp only [inExpansion, List.append_assoc]
      exact Bracket.scans_start .expansion ((hinside.startsWord hnode.1 hnode.2).append _)
    have hpath : Scans .expansion (inside ++ " \x7d\x7d".toList ++ rest) e.tokens .expansion
        (" \x7d\x7d".toList ++ rest) := by
      rw [List.append_assoc]
      exact hinside.scans hnode.1 hnode.2 (Bracket.span_of_mem .expansion (c := ' ') (by simp) _)
    have hclose : Scans .expansion (" \x7d\x7d".toList ++ rest) [.closeExpansion] .text rest :=
      Bracket.scans_close .expansion rest
    refine ⟨.openExpansion :: e.tokens ++ [.closeExpansion], by rw [Node.Spelled], ?_⟩
    exact (hstart.trans hpath).trans hclose
  | .block tag body, cs, rest, h, hnode, hkind, _ => by
    rw [Node.Written] at h
    rw [Node.WellFormed] at hnode
    rw [Node.literals] at hkind
    obtain ⟨head, inside, hhead, hinside, rfl⟩ := h
    have hend : textUnits.span (printEnd tag.kind ++ rest) = ([], printEnd tag.kind ++ rest) := by
      simp only [printEnd, inTag, List.append_assoc]
      exact span_start _ .tag
    obtain ⟨first, hfirst, hscans⟩ := hhead.scans (inside ++ printEnd tag.kind ++ rest) hnode.1
      fun value hvalue => hkind value (List.mem_append_left _ hvalue)
    obtain ⟨kinds, hkinds, hscans'⟩ := Node.AllWritten.scans hinside hnode.2
      (fun value hvalue => hkind value (List.mem_append_right _ hvalue)) hend
    refine ⟨first ++ kinds ++ tag.kind.endSpelling, ?_, ?_⟩
    · rw [Node.Spelled]
      exact ⟨first, kinds, hfirst, hkinds, rfl⟩
    · simp only [List.append_assoc] at hscans hscans' ⊢
      exact hscans.trans (hscans'.trans (scans_printEnd rest tag.kind))

/-- Written nodes are cut into tokens that spell them. -/
theorem Node.AllWritten.scans : ∀ {nodes : List Node} {cs rest : List Char},
    Node.AllWritten nodes cs → Node.AllWellFormed nodes →
      (∀ value ∈ Node.allLiterals nodes, value.kind ≠ .float) →
        textUnits.span rest = ([], rest) →
          ∃ kinds, Node.AllSpelled nodes kinds ∧ Scans .text (cs ++ rest) kinds .text rest
  | [], cs, rest, h, _, _, _ => by
    rw [Node.AllWritten] at h
    subst h
    exact ⟨[], Node.allSpelled_nil, .nil⟩
  | node :: nodes, cs, rest, h, hnodes, hkind, hrest => by
    rw [Node.AllWritten] at h
    rw [Node.AllWellFormed] at hnodes
    rw [Node.allLiterals] at hkind
    obtain ⟨first, others, hfirst, hothers, rfl⟩ := h
    obtain ⟨hnode, hnext, hnodes⟩ := hnodes
    -- A text ends in front of the next node, which is no text, or with the last node.
    have hend : node.isText → textUnits.span (others ++ rest) = ([], others ++ rest) := by
      intro htext
      cases nodes with
      | nil =>
        rw [Node.AllWritten] at hothers
        subst hothers
        exact hrest
      | cons next nodes =>
        rw [Node.AllWritten] at hothers
        obtain ⟨second, more, hsecond, -, rfl⟩ := hothers
        rw [List.append_assoc]
        exact hsecond.span (hnext htext next rfl) _
    obtain ⟨kinds, hkinds, hscans⟩ := hfirst.scans hnode
      (fun value hvalue => hkind value (List.mem_append_left _ hvalue)) hend
    obtain ⟨kinds', hkinds', hscans'⟩ := Node.AllWritten.scans hothers hnodes
      (fun value hvalue => hkind value (List.mem_append_right _ hvalue)) hrest
    refine ⟨kinds ++ kinds', ?_, ?_⟩
    · rw [Node.AllSpelled]
      exact ⟨kinds, kinds', hkinds, hkinds', rfl⟩
    · rw [List.append_assoc]
      exact hscans.trans hscans'

end

/-- However a well-formed template without floating point literals is written, it is read as the
nodes that were written. -/
theorem parse_written {nodes : List Node} {cs : List Char} (h : Node.AllWellFormed nodes)
    (hkind : ∀ value ∈ Node.allLiterals nodes, value.kind ≠ .float)
    (hw : Node.AllWritten nodes cs) : parse (String.ofList cs) = .ok nodes := by
  obtain ⟨kinds, hkinds, hscans⟩ := @Node.AllWritten.scans nodes cs [] hw h hkind rfl
  rw [List.append_nil] at hscans
  obtain ⟨tokens, htokens, rfl⟩ := hscans.tokenize
  exact parse_of_allSpelled htokens hkinds

/-- Names that cannot stand bare are written in backticks, and all others are not. -/
theorem parse_written_mixed :
    parse "To \x7b\x7b a\\.b@\x60c d\x60.e \x7d\x7d\x7b@ if \x60if\x60 < -7 @\x7d\\\x7b\x7b@ end if @\x7d" =
      .ok [.text "To ", .expansion ⟨[⟨"a.b", some "c d"⟩], "e"⟩,
        .block (.conditional ⟨⟨[], "if"⟩, .less, .signed (-7)⟩) [.text "\x7b"]] := by
  have hprint := Node.allWritten_printAll [.text "To ", .expansion ⟨[⟨"a.b", some "c d"⟩], "e"⟩,
    .block (.conditional ⟨⟨[], "if"⟩, .less, .signed (-7)⟩) [.text "\x7b"]]
  refine parse_written ?_ ?_ hprint
  · simp [Node.AllWellFormed, Node.WellFormed, Node.isText, Expansion.WellFormed, Lookup.WellFormed,
      Tag.WellFormed, Comparison.WellFormed, Literal.InRange, minSigned, maxSigned]
  · simp [Node.allLiterals, Node.literals, Tag.literals, Literal.kind]

end MailMerge.Markup

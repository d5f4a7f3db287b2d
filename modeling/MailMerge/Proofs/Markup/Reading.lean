/-
A template is read in two stages that do not wait for each other: every token is pushed onto the
draft as soon as it is cut. What comes out is as if the template were cut into tokens first: a token
that cannot follow is reported even where the scanner fails behind it, and a fault of the scanner is
reported only if every token in front of it could follow.
-/
import MailMerge.Markup.Reader

namespace MailMerge.Markup

namespace Draft

/-- Pushes tokens onto a draft one by one. -/
def pushAll (d : Draft) (tokens : List Token) : Except Refusal Draft :=
  tokens.foldlM Draft.push d

@[simp] theorem pushAll_nil (d : Draft) : d.pushAll [] = .ok d := rfl

theorem pushAll_cons (d : Draft) (t : Token) (tokens : List Token) :
    d.pushAll (t :: tokens) = d.push t >>= (·.pushAll tokens) := rfl

theorem pushAll_append (d : Draft) (tokens more : List Token) :
    d.pushAll (tokens ++ more) = d.pushAll tokens >>= (·.pushAll more) :=
  List.foldlM_append

end Draft

/-- The nodes that tokens amount to at the end of the template `source`. -/
def nodesOf (source : String) (tokens : List Token) : Except Refusal (List Node) :=
  Draft.empty.pushAll tokens >>= Draft.finish source

namespace Reader

/-! ## Cutting into tokens -/

/-- The tokens and the fault depend on the place of the scanner only. -/
theorem readTokens_congr (r r' : Reader) (h : r.cursor = r'.cursor) :
    r.readTokens.1 = r'.readTokens.1 ∧ r.readTokens.2.1 = r'.readTokens.2.1 := by
  fun_induction readTokens r generalizing r' with
  | case1 r t cursor hstep tokens fault r₁ hr₁ ih =>
    rw [h] at hstep
    rw [readTokens, hstep]
    simp only [hr₁] at ih
    obtain ⟨h₁, h₂⟩ := ih { r' with cursor } rfl
    exact ⟨by rw [h₁], h₂⟩
  | case2 r cursor hstep =>
    rw [h] at hstep
    rw [readTokens, hstep]
    exact ⟨rfl, rfl⟩
  | case3 r f cursor hstep =>
    rw [h] at hstep
    rw [readTokens, hstep]
    exact ⟨rfl, rfl⟩

theorem readTokens_token {r : Reader} {t : Token} {cursor : Cursor}
    (h : r.cursor.step = .token t cursor) :
    r.readTokens.1 = t :: ({ r with cursor } : Reader).readTokens.1 ∧
      r.readTokens.2.1 = ({ r with cursor } : Reader).readTokens.2.1 := by
  rw [readTokens, h]
  exact ⟨rfl, rfl⟩

theorem readTokens_fault {r : Reader} {f : ScanFault} {cursor : Cursor}
    (h : r.cursor.step = .fault f cursor) :
    r.readTokens.1 = [] ∧ r.readTokens.2.1 = some (f.placed cursor.position) := by
  rw [readTokens, h]
  exact ⟨rfl, rfl⟩

/-! ## Reading the structure -/

section

variable {r : Reader} {t : Token} {c : Cursor} {f : ScanFault}

theorem readNodes_token (h : r.cursor.step = .token t c) :
    r.readNodes.1 = r.draft.push t >>= fun draft =>
      (⟨r.source, c, draft⟩ : Reader).readNodes.1 := by
  rw [readNodes, h]
  simp only
  cases r.draft.push t <;> rfl

theorem readNodes_finished (h : r.cursor.step = .finished c) :
    r.readNodes.1 = r.draft.finish r.source := by
  rw [readNodes, h]

theorem readNodes_fault (h : r.cursor.step = .fault f c) :
    r.readNodes.1 = .error (f.placed c.position) := by
  rw [readNodes, h]

end

/-- Reading the structure is cutting into tokens and pushing them; the scanner's fault comes last. -/
theorem readNodes_eq (r : Reader) :
    r.readNodes.1 = r.draft.pushAll r.readTokens.1 >>= fun draft =>
      r.readTokens.2.1.elim (draft.finish r.source) .error := by
  fun_induction readNodes r with
  | case1 r t cursor hstep draft hpush ih =>
    obtain ⟨htokens, hfault⟩ := readTokens_token hstep
    obtain ⟨htokens', hfault'⟩ :=
      readTokens_congr { r with cursor, draft } { r with cursor } rfl
    rw [ih, htokens, hfault, htokens', hfault', Draft.pushAll_cons, hpush]
    rfl
  | case2 r t cursor hstep e hpush =>
    rw [(readTokens_token hstep).1, Draft.pushAll_cons, hpush]
    rfl
  | case3 r cursor hstep =>
    rw [readTokens, hstep]
    rfl
  | case4 r f cursor hstep =>
    rw [readTokens, hstep]
    rfl

/-! ## Reading in a bounded number of steps -/

/-- Reads on to the end of the template in at most `n` steps. The recursion is on their number, so
that what a given template is read to can be computed. -/
def readNodesWithin : Nat → Reader → Option (Except Refusal (List Node))
  | 0, _ => none
  | n + 1, r =>
    match r.cursor.step with
    | .token t cursor =>
      match r.draft.push t with
      | .ok draft => readNodesWithin n { r with cursor, draft }
      | .error e => some (.error e)
    | .finished _ => some (r.draft.finish r.source)
    | .fault f cursor => some (.error (f.placed cursor.position))

/-- The tokens up to the end of the template or the first fault, and the fault, in at most `n`
steps. -/
def readTokensWithin : Nat → Reader → Option (List Token × Option Refusal)
  | 0, _ => none
  | n + 1, r =>
    match r.cursor.step with
    | .token t cursor =>
      (readTokensWithin n { r with cursor }).map fun found => (t :: found.1, found.2)
    | .finished _ => some ([], none)
    | .fault f cursor => some ([], some (f.placed cursor.position))

section

variable {n : Nat} {r : Reader}

theorem readNodes_of_within {result : Except Refusal (List Node)}
    (h : r.readNodesWithin n = some result) : r.readNodes.1 = result := by
  induction n generalizing r with
  | zero => cases h
  | succ n ih =>
    rw [readNodesWithin] at h
    cases hstep : r.cursor.step with
    | token t cursor =>
      simp only [hstep] at h
      rw [readNodes_token hstep]
      cases hpush : r.draft.push t with
      | ok draft =>
        rw [hpush] at h
        exact ih h
      | error e =>
        rw [hpush] at h
        exact Option.some.inj h
    | finished cursor =>
      rw [hstep] at h
      rw [readNodes_finished hstep]
      exact Option.some.inj h
    | fault f cursor =>
      rw [hstep] at h
      rw [readNodes_fault hstep]
      exact Option.some.inj h

theorem readTokens_of_within {tokens : List Token} {fault : Option Refusal}
    (h : r.readTokensWithin n = some (tokens, fault)) :
    r.readTokens.1 = tokens ∧ r.readTokens.2.1 = fault := by
  induction n generalizing r tokens with
  | zero => cases h
  | succ n ih =>
    rw [readTokensWithin] at h
    cases hstep : r.cursor.step with
    | token t cursor =>
      rw [hstep] at h
      obtain ⟨_, hrest, ⟨⟩⟩ := Option.map_eq_some_iff.1 h
      obtain ⟨htokens, hfault⟩ := ih hrest
      rw [(readTokens_token hstep).1, (readTokens_token hstep).2, htokens]
      exact ⟨rfl, hfault⟩
    | finished cursor =>
      rw [hstep] at h
      cases h
      rw [readTokens, hstep]
      exact ⟨rfl, rfl⟩
    | fault f cursor =>
      rw [hstep] at h
      cases h
      exact readTokens_fault hstep

end

end Reader

/-! ## Templates -/

theorem parse_eq (source : String) :
    parse source = (Draft.empty.pushAll (Reader.new.load source).readTokens.1 >>= fun draft =>
      (Reader.new.load source).readTokens.2.1.elim (draft.finish source) .error).mapError
        (Refusal.report source) := by
  have hcongr := Reader.readTokens_congr { Reader.new.load source with draft := .empty }
    (Reader.new.load source) rfl
  show (Reader.readNodes { Reader.new.load source with draft := .empty }).1.mapError _ = _
  rw [Reader.readNodes_eq, hcongr.1, hcongr.2]
  rfl

theorem tokenize_eq_ok_iff {source : String} {tokens : List Token} :
    tokenize source = .ok tokens ↔
      (Reader.new.load source).readTokens.1 = tokens ∧
        (Reader.new.load source).readTokens.2.1 = none := by
  unfold tokenize Reader.tokenize Reader.scan
  generalize (Reader.new.load source).readTokens = found
  obtain ⟨tokens', fault, r⟩ := found
  cases fault <;> simp

/-- A template that can be cut into tokens is read from them. -/
theorem parse_of_tokenize {source : String} {tokens : List Token}
    (h : tokenize source = .ok tokens) :
    parse source = (nodesOf source tokens).mapError (Refusal.report source) := by
  obtain ⟨htokens, hfault⟩ := tokenize_eq_ok_iff.1 h
  rw [parse_eq, hfault, ← htokens]
  rfl

/-- A template that can be read can be cut into tokens. -/
theorem tokenize_of_parse {source : String} {nodes : List Node} (h : parse source = .ok nodes) :
    ∃ tokens, tokenize source = .ok tokens ∧ nodesOf source tokens = .ok nodes := by
  cases hfault : (Reader.new.load source).readTokens.2.1 with
  | some e =>
    rw [parse_eq, hfault] at h
    cases hpush : Draft.empty.pushAll (Reader.new.load source).readTokens.1 <;>
      rw [hpush] at h <;> cases h
  | none =>
    have htokens := tokenize_eq_ok_iff.2 ⟨rfl, hfault⟩
    refine ⟨_, htokens, ?_⟩
    rw [parse_of_tokenize htokens] at h
    cases hnodes : nodesOf source (Reader.new.load source).readTokens.1 with
    | ok nodes' => rw [hnodes] at h; cases h; rfl
    | error e => rw [hnodes] at h; cases h

/-! ## Given templates -/

/-- What a template is read to, found out in at most `n` steps. -/
def parseWithin (n : Nat) (source : String) : Option (Except ParseError (List Node)) :=
  ((⟨source, .start source, .empty⟩ : Reader).readNodesWithin n).map
    (·.mapError (Refusal.report source))

/-- The tokens of a template, found out in at most `n` steps. -/
def tokenizeWithin (n : Nat) (source : String) : Option (Except ParseError (List Token)) :=
  ((Reader.new.load source).readTokensWithin n).map fun (tokens, fault) =>
    fault.elim (.ok tokens) fun e => .error (e.report source)

theorem parse_of_within {source : String} {result : Except ParseError (List Node)} (n : Nat)
    (h : parseWithin n source = some result) : parse source = result := by
  obtain ⟨_, hread, rfl⟩ := Option.map_eq_some_iff.1 h
  exact congrArg (·.mapError (Refusal.report source)) (Reader.readNodes_of_within hread)

theorem tokenize_of_within {source : String} {result : Except ParseError (List Token)} (n : Nat)
    (h : tokenizeWithin n source = some result) : tokenize source = result := by
  obtain ⟨⟨tokens, fault⟩, hread, rfl⟩ := Option.map_eq_some_iff.1 h
  obtain ⟨htokens, hfault⟩ := Reader.readTokens_of_within hread
  unfold tokenize Reader.tokenize Reader.scan
  simp only
  rw [htokens, hfault]
  cases fault <;> rfl

end MailMerge.Markup

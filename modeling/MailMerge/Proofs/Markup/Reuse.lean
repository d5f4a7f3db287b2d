/-
Parsers that are used again. The notes of a parser agree with its draft from the first token of a
template to the last one, so that it says of every template what the reader says of it that goes by
the draft alone; and as taking up a template sets back all that was noted down for the one before,
whatever became of that, it says the same of it each time.
-/
import MailMerge.Markup.Parser
import MailMerge.Proofs.Markup.Prefix

namespace MailMerge.Markup

/-! ## Behind an at sign -/

/-- Whether the last token was an at sign. -/
def PathSpot.awaitsIndex : PathSpot → Bool
  | indexing _ _ => true
  | start _ | named _ _ | indexed _ _ => false

/-- Whether the last token of a comparison was an at sign. -/
def ComparisonSpot.awaitsIndex : ComparisonSpot → Bool
  | subject spot => spot.awaitsIndex
  | spaced _ | compared _ _ | complete _ => false

/-- Whether the last token of a tag was an at sign. -/
def TagSpot.awaitsIndex : TagSpot → Bool
  | table _ _ spot => spot.awaitsIndex
  | condition _ _ _ spot | test spot => spot.awaitsIndex
  | _ => false

theorem PathSpot.awaitsIndex_next? {spot spot' : PathSpot} {kind : TokenKind}
    (h : spot.next? kind = some spot') : spot'.awaitsIndex = true ↔ kind = .atSign := by
  unfold next? at h
  split at h <;> cases h <;> simp [awaitsIndex]

theorem ComparisonSpot.awaitsIndex_next? {spot spot' : ComparisonSpot} {kind : TokenKind}
    (h : spot.next? kind = some spot') : spot'.awaitsIndex = true ↔ kind = .atSign := by
  unfold next? at h
  split at h
  case h_1 | h_2 =>
    obtain ⟨_, -, rfl⟩ := Option.map_eq_some_iff.1 h
    simp [awaitsIndex]
  case h_3 =>
    obtain ⟨spot', hnext, rfl⟩ := Option.map_eq_some_iff.1 h
    exact PathSpot.awaitsIndex_next? hnext
  case h_6 => cases h
  all_goals
    cases h
    simp [awaitsIndex]

theorem TagSpot.awaitsIndex_next? {spot spot' : TagSpot} {kind : TokenKind}
    (h : spot.next? kind = some spot') : spot'.awaitsIndex = true ↔ kind = .atSign := by
  unfold next? at h
  split at h
  case h_13 =>
    obtain ⟨_, -, rfl⟩ := Option.map_eq_some_iff.1 h
    simp [awaitsIndex]
  case h_14 =>
    obtain ⟨spot', hnext, rfl⟩ := Option.map_eq_some_iff.1 h
    exact PathSpot.awaitsIndex_next? hnext
  case h_17 | h_19 =>
    obtain ⟨spot', hnext, rfl⟩ := Option.map_eq_some_iff.1 h
    exact ComparisonSpot.awaitsIndex_next? hnext
  case h_12 | h_23 => cases h
  all_goals
    cases h
    simp [awaitsIndex, PathSpot.awaitsIndex, ComparisonSpot.awaitsIndex]

theorem TagSpot.mode_cases (spot : TagSpot) : spot.mode = .tag ∨ spot.mode = .literal := by
  cases spot with
  | condition _ _ _ spot | test spot =>
    cases spot with
    | compared _ _ => exact .inr rfl
    | _ => exact .inl rfl
  | _ => exact .inl rfl

/-! ## Spots and the token in front of them -/

namespace Spot

/-- Whether the last token in front of a spot was an at sign. -/
def awaitsIndex : Spot → Bool
  | expansion spot => spot.awaitsIndex
  | tag _ spot => spot.awaitsIndex
  | content | pending _ _ => false

/-- Whether the last token was the opening bracket of a tag. -/
def startsTag : Spot → Bool
  | tag _ .opened => true
  | _ => false

theorem eq_of_startsTag {spot : Spot} (h : spot.startsTag = true) :
    ∃ opened, spot = .tag opened .opened := by
  unfold startsTag at h
  split at h
  · exact ⟨_, rfl⟩
  · cases h

end Spot

theorem TagSpot.startsTag_next? {spot spot' : TagSpot} {kind : TokenKind} (opened : Nat)
    (h : spot.next? kind = some spot') : (Spot.tag opened spot').startsTag = false := by
  unfold next? at h
  split at h
  case h_13 | h_14 | h_17 | h_19 =>
    obtain ⟨_, -, rfl⟩ := Option.map_eq_some_iff.1 h
    rfl
  case h_12 | h_23 => cases h
  all_goals
    cases h
    rfl

theorem PathSpot.next?_openTag (spot : PathSpot) : spot.next? .openTag = none := by
  cases spot <;> rfl

theorem ComparisonSpot.next?_openTag (spot : ComparisonSpot) : spot.next? .openTag = none := by
  cases spot with
  | subject spot => simp [next?, PathSpot.next?_openTag]
  | _ => rfl

/-- No tag is opened in a tag. -/
theorem TagSpot.next?_openTag (spot : TagSpot) : spot.next? .openTag = none := by
  cases spot with
  | table _ _ spot => simp [next?, PathSpot.next?_openTag]
  | condition _ _ _ spot | test spot => simp [next?, ComparisonSpot.next?_openTag]
  | _ => rfl

namespace Draft

variable {d d' : Draft} {t : Token}

theorem awaitsIndex_eq (d : Draft) : d.awaitsIndex = d.spot.awaitsIndex := by
  obtain ⟨frames, nodes, spot⟩ := d
  cases spot with
  | content | pending _ _ => rfl
  | expansion spot => cases spot <;> rfl
  | tag opened spot =>
    cases spot with
    | table _ _ spot => cases spot <;> rfl
    | condition _ _ _ spot | test spot =>
      cases spot with
      | subject spot => cases spot <;> rfl
      | _ => rfl
    | _ => rfl

theorem awaitsIndex_take? (h : d.take? t = some d') :
    d'.spot.awaitsIndex = true ↔ t.kind = .atSign := by
  unfold take? at h
  split at h
  case h_5 hspot _ =>
    obtain ⟨spot', hnext, rfl⟩ := Option.map_eq_some_iff.1 h
    exact PathSpot.awaitsIndex_next? hnext
  case h_7 hspot _ =>
    split at h
    · cases h
    · obtain ⟨spot', hnext, rfl⟩ := Option.map_eq_some_iff.1 h
      exact TagSpot.awaitsIndex_next? hnext
  case h_8 => cases h
  case h_4 hkind | h_6 hkind =>
    obtain ⟨_, -, rfl⟩ := Option.map_eq_some_iff.1 h
    simp [hkind, Spot.awaitsIndex]
  all_goals
    rename_i hspot hkind
    cases h
    simp [hkind, hspot, Spot.awaitsIndex, TagSpot.awaitsIndex, PathSpot.awaitsIndex]

theorem startsTag_take? (h : d.take? t = some d') :
    d'.spot.startsTag = true ↔ t.kind = .openTag := by
  unfold take? at h
  split at h
  case h_5 spot _ _ =>
    obtain ⟨spot', hnext, rfl⟩ := Option.map_eq_some_iff.1 h
    refine ⟨nofun, ?_⟩
    intro hkind
    rw [hkind, PathSpot.next?_openTag] at hnext
    cases hnext
  case h_7 opened spot _ _ =>
    split at h
    · cases h
    · obtain ⟨spot', hnext, rfl⟩ := Option.map_eq_some_iff.1 h
      rw [TagSpot.startsTag_next? opened hnext]
      refine ⟨nofun, ?_⟩
      intro hkind
      rw [hkind, TagSpot.next?_openTag] at hnext
      cases hnext
  case h_8 => cases h
  case h_4 hkind | h_6 hkind =>
    obtain ⟨_, -, rfl⟩ := Option.map_eq_some_iff.1 h
    simp [hkind, Spot.startsTag]
  all_goals
    rename_i hspot hkind
    cases h
    simp [hkind, hspot, Spot.startsTag]

theorem awaitsIndex_settle (h : d.settle = .ok d') :
    d'.spot.awaitsIndex = d.spot.awaitsIndex := by
  rcases settle_cases h with rfl | ⟨hspot', _, _, hspot⟩
  · rfl
  · rw [hspot', hspot]
    rfl

theorem startsTag_settle (h : d.settle = .ok d') : d'.spot.startsTag = d.spot.startsTag := by
  rcases settle_cases h with rfl | ⟨hspot', _, _, hspot⟩
  · rfl
  · rw [hspot', hspot]
    rfl

theorem frames_take? (h : d.take? t = some d') : d'.frames = d.frames := by
  unfold take? at h
  split at h
  case h_4 | h_5 | h_6 =>
    obtain ⟨_, -, rfl⟩ := Option.map_eq_some_iff.1 h
    rfl
  case h_7 =>
    split at h
    · cases h
    · obtain ⟨_, -, rfl⟩ := Option.map_eq_some_iff.1 h
      rfl
  case h_8 => cases h
  all_goals
    cases h
    rfl

end Draft

theorem Cursor.mode_of_finished {c final : Cursor} (h : c.step = .finished final) :
    final.mode = c.mode := by
  unfold Cursor.step at h
  simp only at h
  split at h
  · cases h
    exact c.mode_skipLayout
  · split at h <;> cases h

namespace Parser

/-! ## What the notes tell -/

/-- What is written down of an open block. -/
def noted (frame : Frame) : BlockKind × Nat :=
  (frame.tag.kind, frame.opened)

/-- The notes of a parser agree with its draft. -/
structure WellNoted (p : Parser) : Prop where
  mode : p.cursor.mode = p.draft.spot.mode
  blocks : p.openBlocks = p.draft.frames.map noted
  tag : p.draft.spot.startsTag = true ↔ p.current.map Token.kind = some .openTag
  index : p.draft.spot.awaitsIndex = true ↔ p.current.map Token.kind = some .atSign

/-- A step of a parser follows that of its draft: it goes to the draft that comes of that, with the
open blocks of this draft written down, or is refused for the same reason. -/
def Follows (p : Parser) (x : Except Refusal Unit × Parser) : Except Refusal Draft → Prop
  | .ok d => x = (.ok (), { p with openBlocks := d.frames.map noted, draft := d })
  | .error e => x.1 = .error e

theorem Follows.eq_error {p : Parser} {x : Except Refusal Unit × Parser} {e : Refusal}
    (h : p.Follows x (.error e)) : ∃ q, x = (.error e, q) :=
  ⟨x.2, Prod.ext h rfl⟩

/-! ## Settling -/

theorem settle_follows {p : Parser} (h : p.openBlocks = p.draft.frames.map noted) :
    p.Follows p.settle p.draft.settle := by
  unfold settle Draft.settle
  cases hspot : p.draft.spot with
  | content | expansion _ | tag _ _ =>
    show (_, p) = (_, { p with openBlocks := _, draft := _ })
    rw [← h]
  | pending opened effect =>
    cases effect with
    | opens tag =>
      rw [h]
      rfl
    | closes kind =>
      rw [h]
      cases hframes : p.draft.frames with
      | nil => rfl
      | cons frame frames =>
        by_cases hkind : frame.tag.kind = kind
        · simp only [List.map_cons, noted, if_pos hkind]
          rfl
        · simp only [List.map_cons, noted, if_neg hkind]
          rfl

/-! ## Pushing -/

/-- The token in front of a token that cannot follow tells what the spot tells. -/
theorem complaint_eq {p : Parser} (hblocks : p.openBlocks = p.draft.frames.map noted)
    (htag : p.draft.spot.startsTag = true ↔ p.previous.map Token.kind = some .openTag)
    (hindex : p.draft.spot.awaitsIndex = true ↔ p.previous.map Token.kind = some .atSign)
    {t : Token} (ht : p.draft.take? t = none) : p.complaint t = p.draft.complaint t := by
  unfold Draft.complaint
  rw [p.draft.awaitsIndex_eq]
  split
  · rename_i name hspot hkind
    have hprevious : p.previous.map Token.kind = some .openTag := htag.1 (by rw [hspot]; rfl)
    simp only [complaint, hprevious, hkind]
  · rename_i hspot hkind
    have hprevious : p.previous.map Token.kind = some .openTag := htag.1 (by rw [hspot]; rfl)
    -- Where a block is open the word could have followed.
    have hframes : p.draft.frames = [] := by
      simpa [Draft.take?, hspot, hkind, TagSpot.next?] using ht
    simp only [complaint, hprevious, hkind, hblocks, hframes, List.map_nil, if_true]
  · rename_i hsegment hend
    split
    · rename_i hawaits
      have hprevious := hindex.1 hawaits
      simp only [complaint, hprevious]
    · rename_i hawaits
      unfold complaint
      split
      · rename_i hprevious hkind
        obtain ⟨opened, hspot⟩ := Spot.eq_of_startsTag (htag.2 hprevious)
        exact (hsegment _ _ hspot hkind).elim
      · rename_i hprevious hkind
        obtain ⟨opened, hspot⟩ := Spot.eq_of_startsTag (htag.2 hprevious)
        exact (hend _ hspot hkind).elim
      · rename_i hprevious
        exact (hawaits (hindex.2 hprevious)).elim
      · rfl

theorem push_follows {p : Parser} (hblocks : p.openBlocks = p.draft.frames.map noted)
    (htag : p.draft.spot.startsTag = true ↔ p.previous.map Token.kind = some .openTag)
    (hindex : p.draft.spot.awaitsIndex = true ↔ p.previous.map Token.kind = some .atSign)
    (t : Token) : p.Follows (p.push t) (p.draft.push t) := by
  have hfollows := settle_follows hblocks
  unfold push Draft.push
  cases hsettle : p.draft.settle with
  | error e =>
    rw [hsettle] at hfollows
    obtain ⟨q, hq⟩ := hfollows.eq_error
    rw [hq]
    rfl
  | ok base =>
    rw [hsettle] at hfollows
    rw [show p.settle = _ from hfollows]
    simp only [bind, Except.bind]
    cases htake : base.take? t with
    | some d =>
      show (_, _) = (_, _)
      rw [Draft.frames_take? htake]
    | none =>
      rw [← Draft.startsTag_settle hsettle] at htag
      rw [← Draft.awaitsIndex_settle hsettle] at hindex
      have hcomplaint := @complaint_eq
        { p with openBlocks := base.frames.map noted, draft := base } rfl htag hindex t htake
      show Except.error _ = Except.error _
      rw [hcomplaint]

/-! ## The end of a template -/

theorem endFault_eq {p : Parser} (hblocks : p.openBlocks = p.draft.frames.map noted)
    (hmode : p.cursor.mode = .text) : p.endFault = Draft.unclosed p.source p.draft.frames := by
  unfold endFault
  rw [hmode, hblocks]
  cases p.draft.frames <;> rfl

/-- Between brackets only open blocks stand against the end of the template. -/
theorem finishContent_eq {p : Parser} (hmode : p.cursor.mode = .text)
    (hblocks : p.openBlocks = p.draft.frames.map noted) :
    p.finishContent.1 = p.draft.settle >>= fun d =>
      if d.frames = [] then .ok d.nodes.reverse
      else .error (.fault (Draft.unclosed p.source d.frames) p.source.length) := by
  have hfollows := settle_follows hblocks
  unfold finishContent
  cases hsettle : p.draft.settle with
  | error e =>
    rw [hsettle] at hfollows
    obtain ⟨q, hq⟩ := hfollows.eq_error
    rw [hq]
    rfl
  | ok d =>
    rw [hsettle] at hfollows
    rw [show p.settle = _ from hfollows]
    show Prod.fst (if d.frames = [] then _ else _) = if d.frames = [] then _ else _
    split
    · rfl
    · have hfault := @endFault_eq { p with openBlocks := d.frames.map noted, draft := d } rfl hmode
      show Except.error _ = Except.error _
      rw [hfault]

theorem finish_eq {p : Parser} (hmode : p.cursor.mode = p.draft.spot.mode)
    (hblocks : p.openBlocks = p.draft.frames.map noted) :
    p.finish.1 = p.draft.finish p.source := by
  unfold finish Draft.finish
  cases hspot : p.draft.spot with
  | expansion spot =>
    rw [hspot] at hmode
    simp only [refuseEnd, endFault, show p.cursor.mode = .expansion from hmode]
  | tag opened spot =>
    rw [hspot] at hmode
    rcases spot.mode_cases with htag | hliteral
    · simp only [refuseEnd, endFault, show p.cursor.mode = .tag from hmode.trans htag]
    · simp only [refuseEnd, endFault, show p.cursor.mode = .literal from hmode.trans hliteral]
  | content =>
    rw [hspot] at hmode
    exact finishContent_eq hmode hblocks
  | pending opened effect =>
    rw [hspot] at hmode
    cases effect with
    | opens tag => simp only [refuseEnd, endFault_eq hblocks hmode]
    | closes kind => exact finishContent_eq hmode hblocks

/-! ## Templates -/

namespace WellNoted

variable {p : Parser} {t : Token} {cursor : Cursor}

/-- A token that was just written down is read as the draft alone reads it. -/
theorem follows (h : p.WellNoted) (t : Token) (cursor : Cursor) :
    (p.note (some t) cursor).Follows ((p.note (some t) cursor).push t) (p.draft.push t) :=
  @push_follows (p.note (some t) cursor) h.blocks h.tag h.index t

/-- The notes go on agreeing with the draft from token to token. -/
theorem push (h : p.WellNoted) (hstep : p.cursor.step = .token t cursor) {d : Draft}
    (hd : p.draft.push t = .ok d) :
    WellNoted { p.note (some t) cursor with openBlocks := d.frames.map noted, draft := d } := by
  obtain ⟨base, -, htake⟩ := Draft.push_eq_ok_iff.1 hd
  obtain ⟨layout, w, -, -, -, -, -, hnext⟩ := Cursor.step_eq_token_cases hstep
  refine ⟨?_, rfl, ?_, ?_⟩
  · have hmode : cursor.mode = p.cursor.mode.after t.kind := congrArg Cursor.mode hnext
    show cursor.mode = d.spot.mode
    rw [hmode, h.mode, Draft.mode_push hd]
  · rw [Draft.startsTag_take? htake]
    exact Option.some_inj.symm
  · rw [Draft.awaitsIndex_take? htake]
    exact Option.some_inj.symm

end WellNoted

/-- With notes that agree with the draft a parser reads what the reader reads that has none. -/
theorem readNodes_eq {p : Parser} (h : p.WellNoted) :
    p.readNodes.1 = (⟨p.source, p.cursor, p.draft⟩ : Reader).readNodes.1 := by
  fun_induction readNodes p with
  | case1 p t cursor hstep next hpush ih =>
    have hfollows := h.follows t cursor
    rw [Reader.readNodes_token hstep]
    cases hd : p.draft.push t with
    | error e =>
      rw [hd, hpush] at hfollows
      cases hfollows
    | ok d =>
      rw [hd, hpush] at hfollows
      cases hfollows
      exact ih (h.push hstep hd)
  | case2 p t cursor hstep e next hpush =>
    have hfollows := h.follows t cursor
    rw [Reader.readNodes_token hstep]
    cases hd : p.draft.push t with
    | error e' =>
      rw [hd, hpush] at hfollows
      cases hfollows
      rfl
    | ok d =>
      rw [hd, hpush] at hfollows
      cases hfollows
  | case3 p cursor hstep =>
    rw [Reader.readNodes_finished hstep]
    refine finish_eq ?_ h.blocks
    show cursor.mode = p.draft.spot.mode
    rw [Cursor.mode_of_finished hstep, h.mode]
  | case4 p f cursor hstep => rw [Reader.readNodes_fault hstep]

/-! ## The template stays -/

theorem source_finishContent (p : Parser) : p.finishContent.2.source = p.source := by
  obtain ⟨openBlocks, draft, hkeeps⟩ := p.settle_keeps
  unfold finishContent
  generalize p.settle = x at hkeeps
  obtain ⟨result, q⟩ := x
  cases hkeeps
  cases result with
  | error e => rfl
  | ok _ =>
    simp only
    split <;> rfl

theorem source_finish (p : Parser) : p.finish.2.source = p.source := by
  unfold finish
  split
  · rfl
  · rfl
  · rfl
  · exact p.source_finishContent
  · exact p.source_finishContent

theorem source_readNodes (p : Parser) : p.readNodes.2.source = p.source := by
  fun_induction readNodes p with
  | case1 p t cursor hstep next hpush ih =>
    obtain ⟨openBlocks, draft, hkeeps⟩ := (p.note (some t) cursor).push_keeps t
    rw [hpush] at hkeeps
    rw [ih, show next = _ from hkeeps]
    rfl
  | case2 p t cursor hstep e next hpush =>
    obtain ⟨openBlocks, draft, hkeeps⟩ := (p.note (some t) cursor).push_keeps t
    rw [hpush] at hkeeps
    rw [show next = _ from hkeeps]
    rfl
  | case3 p cursor hstep => exact source_finish _
  | case4 p f cursor hstep => rfl

/-! ## Tokens -/

theorem source_readTokens (p : Parser) : p.readTokens.2.source = p.source := by
  fun_induction readTokens p with
  | case1 p t cursor hstep result q hrest ih =>
    rw [hrest] at ih
    exact ih
  | case2 p cursor hstep => rfl
  | case3 p f cursor hstep => rfl

/-- A parser cuts the tokens that a reader cuts at the same place. -/
theorem readTokens_eq (p : Parser) (r : Reader) (h : r.cursor = p.cursor) :
    p.readTokens.1 = r.readTokens.2.1.elim (.ok r.readTokens.1) .error := by
  fun_induction readTokens p generalizing r with
  | case1 p t cursor hstep result q hrest ih =>
    rw [← h] at hstep
    obtain ⟨htokens, hfault⟩ := Reader.readTokens_token hstep
    have hnext := ih { r with cursor } rfl
    rw [hrest] at hnext
    rw [htokens, hfault, show result = _ from hnext]
    cases ({ r with cursor } : Reader).readTokens.2.1 <;> rfl
  | case2 p cursor hstep =>
    rw [← h] at hstep
    rw [Reader.readTokens, hstep]
    rfl
  | case3 p f cursor hstep =>
    rw [← h] at hstep
    rw [Reader.readTokens, hstep]
    rfl

/-! ## Templates -/

/-- Whatever a parser was used for before, it reads a template as the reader does. -/
theorem parse_eq (p : Parser) (source : String) : (p.parse source).1 = Markup.parse source := by
  have hnoted : WellNoted { p.load source with openBlocks := [], draft := .empty } :=
    ⟨rfl, rfl, ⟨nofun, nofun⟩, ⟨nofun, nofun⟩⟩
  have hread := readNodes_eq hnoted
  have hsource := source_readNodes { p.load source with openBlocks := [], draft := .empty }
  show Except.mapError (Refusal.report _) _ = Except.mapError (Refusal.report source) _
  rw [hread, hsource]
  rfl

theorem tokenize_eq (p : Parser) (source : String) :
    (p.tokenize source).1 = Markup.tokenize source := by
  have hread := readTokens_eq (p.load source) (Reader.new.load source) rfl
  have hsource := source_readTokens (p.load source)
  show Except.mapError (Refusal.report _) _ = _
  rw [hread, hsource]
  unfold Markup.tokenize Reader.tokenize Reader.scan
  generalize (Reader.new.load source).readTokens = found
  obtain ⟨tokens, fault, r⟩ := found
  cases fault <;> rfl

end Parser

namespace Reader

theorem parse_anew (r : Reader) (source : String) : (r.parse source).1 = Markup.parse source :=
  rfl

theorem tokenize_anew (r : Reader) (source : String) :
    (r.tokenize source).1 = Markup.tokenize source := by
  obtain ⟨htokens, hfault⟩ := readTokens_congr (r.load source) (new.load source) rfl
  unfold Markup.tokenize tokenize scan
  generalize (r.load source).readTokens = found, (new.load source).readTokens = found' at *
  obtain ⟨tokens, fault, _⟩ := found
  obtain ⟨tokens', fault', _⟩ := found'
  cases htokens
  cases hfault
  cases fault <;> rfl

end Reader

/-! ## Requests -/

/-- Whatever state the requests leave behind, each is answered as if it were the only one. -/
theorem inTurn_eq_map {σ : Type} {answer : σ → Request → Reply × σ} {reply : Request → Reply}
    (h : ∀ s q, (answer s q).1 = reply q) (s : σ) (requests : List Request) :
    (inTurn answer s requests).1 = requests.map reply := by
  induction requests generalizing s with
  | nil => rfl
  | cons q requests ih =>
    show (answer s q).1 :: (inTurn answer _ requests).1 = _
    rw [h s q, ih]
    rfl

theorem Parser.answer_eq (p : Parser) (q : Request) : (p.answer q).1 = q.reply := by
  cases q with
  | parse source => exact congrArg Reply.nodes (p.parse_eq source)
  | tokenize source => exact congrArg Reply.tokens (p.tokenize_eq source)

theorem Reader.answer_eq (r : Reader) (q : Request) : (r.answer q).1 = q.reply := by
  cases q with
  | parse source => exact congrArg Reply.nodes (r.parse_anew source)
  | tokenize source => exact congrArg Reply.tokens (r.tokenize_anew source)

/-- A parser carries nothing over from one template to the next: whatever it was used for before,
and whatever it is asked for in turn, it gives the replies that new parsers give, and so does a
reader; and these are the nodes and the tokens of each template. -/
theorem inTurn_anew (p : Parser) (r : Reader) (requests : List Request) :
    (inTurn Parser.answer p requests).1 = requests.map (fun q => (Parser.new.answer q).1) ∧
      (inTurn Reader.answer r requests).1 = requests.map (fun q => (Parser.new.answer q).1) ∧
      ∀ source, (Parser.new.parse source).1 = parse source ∧
        (Parser.new.tokenize source).1 = tokenize source := by
  have hnew : (fun q => (Parser.new.answer q).1) = Request.reply := funext Parser.new.answer_eq
  rw [hnew]
  refine ⟨?_, ?_, ?_⟩
  · exact inTurn_eq_map Parser.answer_eq p requests
  · exact inTurn_eq_map Reader.answer_eq r requests
  · intro source
    exact ⟨Parser.new.parse_eq source, Parser.new.tokenize_eq source⟩

/-- A template that breaks off leaves a block noted down and the scanner in an interpolation. -/
example :
    (fun p : Parser => (p.openBlocks, p.cursor.mode))
      (Parser.new.parse "\x7b@ if a=\"\" @\x7d\x7b\x7b").2 = ([(.conditional, 0)], .expansion) := by
  cbv

end MailMerge.Markup

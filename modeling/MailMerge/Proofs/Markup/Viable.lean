/-
Fronts of templates that can be completed. From every spot some words lead on to the end of the
bracket, and the blocks that are open behind it can be closed one after the other. Only an end tag
that names the wrong kind of block leads nowhere.
-/
import MailMerge.Proofs.Markup.Prefix

namespace MailMerge.Markup

open MailMerge.Text MailMerge.Number

/-- Something can be put behind the text so that it is a template that is read. -/
def Viable (cs : List Char) : Prop :=
  ∃ more nodes, parse (String.ofList (cs ++ more)) = .ok nodes

theorem Viable.of_append {cs more : List Char} (h : Viable (cs ++ more)) : Viable cs := by
  obtain ⟨rest, nodes, hparse⟩ := h
  rw [List.append_assoc] at hparse
  exact ⟨more ++ rest, nodes, hparse⟩

/-- Some tokens of `cs` amount to the draft. -/
def LeadsTo (cs : List Char) (d : Draft) : Prop :=
  ∃ tokens, Leads cs tokens d

/-! ## Shapes of words -/

theorem shape_keyword (k : Keyword) : Bracket.tag.Shape (.keyword k) k.word.toList := by
  have hword : Bracket.tag.word k.word.toList = .keyword k := by
    show Rule.wordOf _ = _
    rw [Rule.wordOf, String.ofList_toList]
    cases k <;> rfl
  rw [← hword]
  exact .word (by cases k <;> decide) (by cases k <;> rfl)

theorem shape_name (b : Bracket) : b.Shape (.segment "x") ['x'] := by
  cases b
  · exact .word (b := .expansion) (w := ['x']) (by decide) rfl
  · exact .word (b := .tag) (w := ['x']) (by decide) rfl

theorem shape_space (b : Bracket) : b.Shape .blank [' '] :=
  .blank (by simp) fun c hc => by
    rw [List.mem_singleton.1 hc]
    rfl

theorem shape_close (b : Bracket) : b.Shape b.close.2 b.close.1 :=
  .closing (List.forall_mem_nil _)

/-! ## One more word -/

namespace LeadsTo

variable {cs w : List Char} {d d' : Draft} {kind : TokenKind}

theorem push (h : LeadsTo cs d) (htext : ∀ value, kind ≠ .text value)
    (hshape : d.spot.mode.Shape kind w)
    (hpush : d.push ⟨kind, cs.length, String.ofList w⟩ = .ok d') : LeadsTo (cs ++ w) d' := by
  obtain ⟨tokens, hleads⟩ := h
  exact ⟨_, hleads.push htext hshape (List.forall_mem_nil _) (fun _ => rfl) hpush⟩

variable {frames : List Frame} {nodes : List Node} {n : Nat} {spot spot' : TagSpot}

theorem push_tag (hnext : spot.next? kind = some spot')
    (hend : kind = .keyword .endWord → frames ≠ []) (position : Nat) (spelling : String) :
    (⟨frames, nodes, .tag n spot⟩ : Draft).push ⟨kind, position, spelling⟩ =
      .ok ⟨frames, nodes, .tag n spot'⟩ := by
  have hpush := @Draft.pushAll_tag frames nodes n spot spot' [⟨kind, position, spelling⟩]
    (fun hframes _ t ht hkind => by
      cases ht
      exact hend hkind hframes) (by simpa using hnext)
  obtain ⟨d₁, hd₁, hnil⟩ := Draft.pushAll_cons_eq_ok_iff.1 hpush
  cases hnil
  exact hd₁

/-- A word goes on with a block tag. -/
theorem tag (h : LeadsTo cs ⟨frames, nodes, .tag n spot⟩) (spot' : TagSpot)
    (hmode : spot.mode = .tag) (hshape : Bracket.tag.Shape kind w)
    (hnext : spot.next? kind = some spot') (hend : kind = .keyword .endWord → frames ≠ []) :
    LeadsTo (cs ++ w) ⟨frames, nodes, .tag n spot'⟩ := by
  have hshape : spot.mode.Shape kind w := by
    rw [hmode]
    exact hshape
  refine h.push ?_ hshape (push_tag hnext hend _ _)
  rintro value rfl
  have := Mode.eq_text_of_shape hshape
  rw [hmode] at this
  cases this

/-- A word goes on with an interpolation. -/
theorem expansion {spot spot' : PathSpot} (h : LeadsTo cs ⟨frames, nodes, .expansion spot⟩)
    (hshape : Bracket.expansion.Shape kind w) (hnext : spot.next? kind = some spot') :
    LeadsTo (cs ++ w) ⟨frames, nodes, .expansion spot'⟩ := by
  have hpush := @Draft.pushAll_expansion frames nodes spot spot'
    [⟨kind, cs.length, String.ofList w⟩] (by simpa using hnext)
  obtain ⟨d₁, hd₁, hnil⟩ := Draft.pushAll_cons_eq_ok_iff.1 hpush
  cases hnil
  refine h.push ?_ hshape hd₁
  rintro value rfl
  have htext : Mode.expansion = .text := Mode.eq_text_of_shape hshape
  cases htext

theorem close_tag (h : LeadsTo cs ⟨frames, nodes, .tag n spot⟩) (effect : TagEffect)
    (hmode : spot.mode = .tag) (heffect : spot.effect? = some effect) :
    LeadsTo (cs ++ ['@', '}']) ⟨frames, nodes, .pending n effect⟩ := by
  have hshape : spot.mode.Shape .closeTag ['@', '}'] := by
    rw [hmode]
    exact shape_close .tag
  exact h.push (by simp) hshape (Draft.push_of_take? rfl (by simp [Draft.take?, heffect]))

/-- A block tag can be opened between brackets. -/
theorem open_tag (h : LeadsTo cs d) (hsettle : d.settle = .ok ⟨frames, nodes, .content⟩) :
    LeadsTo (cs ++ ['{', '@']) ⟨frames, nodes, .tag cs.length .opened⟩ := by
  have hmode : d.spot.mode = .text := (Draft.mode_settle hsettle).symm
  have hshape : d.spot.mode.Shape .openTag ['{', '@'] := by
    rw [hmode]
    exact TextShape.opening .tag (List.forall_mem_nil _)
  exact h.push (by simp) hshape (Draft.push_eq_ok_iff.2 ⟨_, hsettle, rfl⟩)

end LeadsTo

/-! ## The end of a template -/

theorem parse_of_leadsTo {cs : List Char} {d : Draft} {nodes : List Node} (h : LeadsTo cs d)
    (hsettle : d.settle = .ok ⟨[], nodes, .content⟩) :
    parse (String.ofList cs) = .ok nodes.reverse := by
  obtain ⟨tokens, hleads⟩ := h
  have hmode : d.spot.mode = .text := (Draft.mode_settle hsettle).symm
  have hyields := hleads.yields [] (Spot.endsBefore_of_text hmode [])
  rw [List.append_nil, hmode] at hyields
  have hstart : Cursor.start (String.ofList cs) = ⟨.text, 0, cs⟩ := by
    rw [Cursor.start, String.toList_ofList]
  rw [← hstart] at hyields
  have hfinish := Draft.finish_of_settle hsettle (String.ofList cs)
  rw [if_pos rfl] at hfinish
  have hnodes : nodesOf (String.ofList cs) tokens = .ok nodes.reverse := by
    unfold nodesOf
    rw [hleads.pushed]
    exact hfinish
  rw [parse_of_tokenize (hyields.tokenize rfl), hnodes]
  rfl

/-- Open blocks can be closed from the innermost one outwards. -/
theorem viable_of_settle {cs : List Char} {d : Draft} {frames : List Frame} {nodes : List Node}
    (h : LeadsTo cs d) (hsettle : d.settle = .ok ⟨frames, nodes, .content⟩) : Viable cs := by
  induction frames generalizing cs d nodes with
  | nil =>
    refine ⟨[], nodes.reverse, ?_⟩
    rw [List.append_nil]
    exact parse_of_leadsTo h hsettle
  | cons frame frames ih =>
    have hopened := h.open_tag hsettle
    have hend := hopened.tag .endRead rfl (shape_keyword .endWord) rfl (by simp)
    have hspace := hend.tag .endStart rfl (shape_space .tag) rfl (by simp)
    have hkind := hspace.tag (.ended frame.tag.kind) rfl (shape_keyword frame.tag.kind.keyword)
      (by cases frame.tag.kind <;> rfl) (by simp)
    have hclosed := hkind.close_tag _ rfl rfl
    have hsettled : (⟨frame :: frames, nodes, .pending cs.length (.closes frame.tag.kind)⟩ :
        Draft).settle = .ok ⟨frames, .block frame.tag nodes.reverse :: frame.before, .content⟩ := by
      simp [Draft.settle]
    exact (ih hclosed hsettled).of_append.of_append.of_append.of_append.of_append

/-! ## Inside a bracket -/

/-- The lookups that lead to a spot. -/
def PathSpot.path : PathSpot → List Lookup
  | start path | named path _ | indexing path _ | indexed path _ => path

section

variable {cs : List Char} {frames : List Frame} {nodes : List Node} {n : Nat}

/-- A path can be completed with one more name, or a dot and a name, whatever it stands in. -/
theorem leadsTo_named (embed : PathSpot → Spot) {b : Bracket}
    (hstep : ∀ {cs w : List Char} {kind : TokenKind} {spot spot' : PathSpot}, b.Shape kind w →
      spot.next? kind = some spot' → LeadsTo cs ⟨frames, nodes, embed spot⟩ →
        LeadsTo (cs ++ w) ⟨frames, nodes, embed spot'⟩)
    {spot : PathSpot} (h : LeadsTo cs ⟨frames, nodes, embed spot⟩) :
    ∃ more path name, LeadsTo (cs ++ more) ⟨frames, nodes, embed (.named path name)⟩ := by
  have hstart : ∀ {cs path}, LeadsTo cs ⟨frames, nodes, embed (.start path)⟩ →
      LeadsTo (cs ++ ['x']) ⟨frames, nodes, embed (.named path "x")⟩ :=
    fun h => hstep (shape_name b) rfl h
  have hindexed : ∀ {cs path l}, LeadsTo cs ⟨frames, nodes, embed (.indexed path l)⟩ →
      LeadsTo (cs ++ ['.'] ++ ['x']) ⟨frames, nodes, embed (.named (path ++ [l]) "x")⟩ :=
    fun h => hstart (hstep .dot rfl h)
  cases spot with
  | start path => exact ⟨_, path, _, hstart h⟩
  | named path name => exact ⟨[], path, name, by rwa [List.append_nil]⟩
  | indexing path table =>
    have hnamed := hindexed (hstep (shape_name b) rfl h)
    rw [List.append_assoc, List.append_assoc] at hnamed
    exact ⟨_, _, _, hnamed⟩
  | indexed path l =>
    have hnamed := hindexed h
    rw [List.append_assoc] at hnamed
    exact ⟨_, _, _, hnamed⟩

theorem viable_expansion {spot : PathSpot} (h : LeadsTo cs ⟨frames, nodes, .expansion spot⟩) :
    Viable cs := by
  obtain ⟨more, path, name, hnamed⟩ := leadsTo_named .expansion
    (fun hshape hnext h => h.expansion hshape hnext) h
  have hclosed : LeadsTo (cs ++ more ++ ['}', '}'])
      ⟨frames, .expansion ⟨path, name⟩ :: nodes, .content⟩ :=
    hnamed.push (by rintro _ ⟨⟩) (shape_close .expansion) (Draft.push_of_take? rfl rfl)
  exact (viable_of_settle hclosed rfl).of_append.of_append

/-- A place in a tag where a comparison stands last. -/
structure EndsInComparison (embed : ComparisonSpot → TagSpot) : Prop where
  next : ∀ {spot spot' : ComparisonSpot} {kind : TokenKind}, spot.next? kind = some spot' →
    (embed spot).next? kind = some (embed spot')
  mode : ∀ spot, (embed spot).mode = spot.mode
  effect : ∀ c, ∃ tag, (embed (.complete c)).effect? = some (.opens tag)

theorem endsInComparison_test : EndsInComparison .test :=
  ⟨fun h => by rw [TagSpot.next?, h]; rfl, fun _ => rfl, fun _ => ⟨_, rfl⟩⟩

theorem endsInComparison_condition (other : Bool) (name : String) (lookup : Lookup) :
    EndsInComparison (.condition other name lookup) :=
  ⟨fun h => by rw [TagSpot.next?, h]; rfl, fun _ => rfl, fun _ => ⟨_, rfl⟩⟩

section

variable {embed : ComparisonSpot → TagSpot} (hembed : EndsInComparison embed)

include hembed

theorem viable_complete {c : Comparison}
    (h : LeadsTo cs ⟨frames, nodes, .tag n (embed (.complete c))⟩) : Viable cs := by
  obtain ⟨tag, heffect⟩ := hembed.effect c
  exact (viable_of_settle (h.close_tag _ (hembed.mode _) heffect) rfl).of_append

/-- Behind a comparator a literal can stand, also behind layout. -/
theorem viable_compared {e : Expansion} {op : Comparator}
    (h : LeadsTo cs ⟨frames, nodes, .tag n (embed (.compared e op))⟩) {layout : List Char}
    (hlayout : ∀ c ∈ layout, isLayout c = true) : Viable (cs ++ layout) := by
  obtain ⟨tokens, hleads⟩ := h
  have hmode : (embed (.compared e op)).mode = .literal := hembed.mode _
  have hshape : (embed (.compared e op)).mode.Shape (.literal (.text "")) ['"', '"'] := by
    rw [hmode]
    exact @LiteralShape.quoted [] rfl
  have hcomplete := hleads.push (by simp) hshape hlayout (fun h => (h hmode).elim)
    (LeadsTo.push_tag (hembed.next rfl) (by simp) _ _)
  have hviable := viable_complete hembed ⟨_, hcomplete⟩
  rw [← List.append_assoc] at hviable
  exact hviable.of_append

theorem viable_comparison {spot : ComparisonSpot}
    (h : LeadsTo cs ⟨frames, nodes, .tag n (embed spot)⟩) {layout : List Char}
    (hlayout : ∀ c ∈ layout, isLayout c = true) (hmode : spot.mode ≠ .literal → layout = []) :
    Viable (cs ++ layout) := by
  have hcompared : ∀ {cs : List Char} {e : Expansion} {op : Comparator},
      LeadsTo cs ⟨frames, nodes, .tag n (embed (.compared e op))⟩ → Viable cs := by
    intro cs e op h
    simpa using viable_compared hembed h (List.forall_mem_nil _)
  cases spot with
  | subject spot =>
    rw [hmode (by rintro ⟨⟩), List.append_nil]
    obtain ⟨more, path, name, hnamed⟩ := leadsTo_named
      (fun spot => .tag n (embed (.subject spot))) (b := .tag)
      (fun hshape hnext h => h.tag _ (hembed.mode _) hshape
        (hembed.next (ComparisonSpot.next?_subject hnext))
        fun hend => ((PathSpot.kind_of_next? hnext).2 _ hend).elim) h
    have hoperator := hnamed.tag _ (hembed.mode _) (.operator .equal rfl) (hembed.next rfl) (by simp)
    exact (hcompared hoperator).of_append.of_append
  | spaced e =>
    rw [hmode (by rintro ⟨⟩), List.append_nil]
    have hoperator := h.tag _ (hembed.mode _) (.operator .equal rfl) (hembed.next rfl) (by simp)
    exact (hcompared hoperator).of_append
  | compared e op => exact viable_compared hembed h hlayout
  | complete c =>
    rw [hmode (by rintro ⟨⟩), List.append_nil]
    exact viable_complete hembed h

end

/-! ### Loops -/

theorem viable_table_named {other : Bool} {name : String} {spot : PathSpot} {lookup : Lookup}
    (h : LeadsTo cs ⟨frames, nodes, .tag n (.table other name spot)⟩)
    (hlookup : spot.lookup? = some lookup) : Viable cs := by
  have hclosed := h.close_tag (.opens (.loop ⟨name, lookup, none, other⟩)) rfl
    (by rw [TagSpot.effect?, hlookup]; rfl)
  exact (viable_of_settle hclosed rfl).of_append

/-- The table of a loop is a single lookup. -/
theorem viable_table {other : Bool} {name : String} {spot : PathSpot}
    (h : LeadsTo cs ⟨frames, nodes, .tag n (.table other name spot)⟩) (hpath : spot.path = []) :
    Viable cs := by
  cases spot with
  | start path =>
    cases hpath
    have hnamed := h.tag (.table other name (.named [] "x")) rfl (shape_name .tag) rfl (by simp)
    exact (viable_table_named hnamed rfl).of_append
  | named path table =>
    cases hpath
    exact viable_table_named h rfl
  | indexing path table =>
    cases hpath
    have hindexed := h.tag (.table other name (.indexed [] ⟨table, some "x"⟩)) rfl
      (shape_name .tag) rfl (by simp)
    exact (viable_table_named hindexed rfl).of_append
  | indexed path last =>
    cases hpath
    exact viable_table_named h rfl

theorem viable_inRead {other : Bool} {name : String}
    (h : LeadsTo cs ⟨frames, nodes, .tag n (.inRead other name)⟩) : Viable cs := by
  have htable := h.tag (.table other name (.start [])) rfl (shape_space .tag) rfl (by simp)
  exact (viable_table htable rfl).of_append

theorem viable_inStart {other : Bool} {name : String}
    (h : LeadsTo cs ⟨frames, nodes, .tag n (.inStart other name)⟩) : Viable cs := by
  have hin := h.tag (.inRead other name) rfl (shape_keyword .inWord) rfl (by simp)
  exact (viable_inRead hin).of_append

theorem viable_named {other : Bool} {name : String}
    (h : LeadsTo cs ⟨frames, nodes, .tag n (.named other name)⟩) : Viable cs := by
  have hspace := h.tag (.inStart other name) rfl (shape_space .tag) rfl (by simp)
  exact (viable_inStart hspace).of_append

theorem viable_nameStart (h : LeadsTo cs ⟨frames, nodes, .tag n .nameStart⟩) : Viable cs := by
  have hname := h.tag (.named false "x") rfl (shape_name .tag) rfl (by simp)
  exact (viable_named hname).of_append

theorem viable_otherStart (h : LeadsTo cs ⟨frames, nodes, .tag n .otherStart⟩) : Viable cs := by
  have hname := h.tag (.named true "x") rfl (shape_name .tag) rfl (by simp)
  exact (viable_named hname).of_append

theorem viable_whereRead {other : Bool} {name : String} {lookup : Lookup}
    (h : LeadsTo cs ⟨frames, nodes, .tag n (.whereRead other name lookup)⟩) : Viable cs := by
  have hspace := h.tag (.condition other name lookup (.subject (.start []))) rfl
    (shape_space .tag) rfl (by simp)
  have hviable := viable_comparison (endsInComparison_condition other name lookup) hspace
    (List.forall_mem_nil _) fun _ => rfl
  rw [List.append_nil] at hviable
  exact hviable.of_append

/-! ### Conditions -/

theorem viable_ifRead (h : LeadsTo cs ⟨frames, nodes, .tag n .ifRead⟩) : Viable cs := by
  have hspace := h.tag (.test (.subject (.start []))) rfl (shape_space .tag) rfl (by simp)
  have hviable := viable_comparison endsInComparison_test hspace (List.forall_mem_nil _) fun _ => rfl
  rw [List.append_nil] at hviable
  exact hviable.of_append

theorem viable_opened (h : LeadsTo cs ⟨frames, nodes, .tag n .opened⟩) : Viable cs := by
  have hword := h.tag .ifRead rfl (shape_keyword .ifWord) rfl (by simp)
  exact (viable_ifRead hword).of_append

/-! ### End tags -/

theorem viable_ended {frame : Frame}
    (h : LeadsTo cs ⟨frame :: frames, nodes, .tag n (.ended frame.tag.kind)⟩) : Viable cs := by
  have hsettled : (⟨frame :: frames, nodes, .pending n (.closes frame.tag.kind)⟩ : Draft).settle =
      .ok ⟨frames, .block frame.tag nodes.reverse :: frame.before, .content⟩ := by
    simp [Draft.settle]
  exact (viable_of_settle (h.close_tag _ rfl rfl) hsettled).of_append

theorem viable_endStart {frame : Frame}
    (h : LeadsTo cs ⟨frame :: frames, nodes, .tag n .endStart⟩) : Viable cs := by
  have hkind := h.tag (.ended frame.tag.kind) rfl (shape_keyword frame.tag.kind.keyword)
    (by cases frame.tag.kind <;> rfl) (by simp)
  exact (viable_ended hkind).of_append

theorem viable_endRead {frame : Frame}
    (h : LeadsTo cs ⟨frame :: frames, nodes, .tag n .endRead⟩) : Viable cs := by
  have hspace := h.tag .endStart rfl (shape_space .tag) rfl (by simp)
  exact (viable_endStart hspace).of_append

end

/-! ## Spots -/

/-- What holds of the spot of a tag where the blocks of `frames` are open: the table of a loop is a
single lookup, and an end tag stands in a block. -/
def TagSpot.Sound (frames : List Frame) : TagSpot → Prop
  | table _ _ spot => spot.path = []
  | endRead | endStart | ended _ => frames ≠ []
  | _ => True

/-- What holds of a spot where the blocks of `frames` are open. Behind an end tag one of them is. -/
def Spot.Sound (frames : List Frame) : Spot → Prop
  | tag _ spot => spot.Sound frames
  | pending _ (.closes _) => frames ≠ []
  | _ => True

theorem PathSpot.path_next? {spot spot' : PathSpot} {kind : TokenKind} (hdot : kind ≠ .dot)
    (h : spot.next? kind = some spot') : spot'.path = spot.path := by
  unfold next? at h
  split at h <;> cases h <;> first | rfl | exact (hdot rfl).elim

theorem TagSpot.Sound.next? {frames : List Frame} {spot spot' : TagSpot} {kind : TokenKind}
    (hs : spot.Sound frames) (hend : kind = .keyword .endWord → frames ≠ [])
    (h : spot.next? kind = some spot') : spot'.Sound frames := by
  unfold TagSpot.next? at h
  split at h
  case h_3 =>
    cases h
    exact hend rfl
  case h_13 | h_17 | h_19 =>
    obtain ⟨_, -, rfl⟩ := Option.map_eq_some_iff.1 h
    trivial
  case h_14 hdot _ =>
    obtain ⟨spot', hnext, rfl⟩ := Option.map_eq_some_iff.1 h
    exact (PathSpot.path_next? hdot hnext).trans hs
  case h_20 | h_21 | h_22 =>
    cases h
    exact hs
  case h_12 | h_23 => cases h
  all_goals
    cases h
    trivial

theorem TagSpot.Sound.effect? {frames : List Frame} {spot : TagSpot} {effect : TagEffect}
    (hs : spot.Sound frames) (h : spot.effect? = some effect) (opened : Nat) :
    (Spot.pending opened effect).Sound frames := by
  unfold TagSpot.effect? at h
  split at h
  case h_1 =>
    obtain ⟨_, -, rfl⟩ := Option.map_eq_some_iff.1 h
    trivial
  case h_4 =>
    cases h
    exact hs
  case h_5 => cases h
  all_goals
    cases h
    trivial

theorem Draft.sound_push {d d' : Draft} {t : Token} (hs : d.spot.Sound d.frames)
    (h : d.push t = .ok d') : d'.spot.Sound d'.frames := by
  obtain ⟨base, hsettle, htake⟩ := push_eq_ok_iff.1 h
  have hbase : base.spot.Sound base.frames := by
    rcases settle_cases hsettle with rfl | ⟨hspot, -⟩
    · exact hs
    · rw [hspot]
      trivial
  unfold take? at htake
  split at htake
  case h_1 hspot _ =>
    cases htake
    exact hbase
  case h_4 | h_5 =>
    obtain ⟨_, -, rfl⟩ := Option.map_eq_some_iff.1 htake
    trivial
  case h_6 hspot _ =>
    obtain ⟨effect, heffect, rfl⟩ := Option.map_eq_some_iff.1 htake
    rw [hspot] at hbase
    exact TagSpot.Sound.effect? hbase heffect _
  case h_7 hspot _ =>
    split at htake
    · cases htake
    · rename_i hstray
      obtain ⟨spot', hnext, rfl⟩ := Option.map_eq_some_iff.1 htake
      rw [hspot] at hbase
      exact TagSpot.Sound.next? hbase (fun hend hframes => hstray ⟨hend, hframes⟩) hnext
  case h_8 => cases htake
  all_goals
    cases htake
    trivial

theorem Draft.sound_pushAll {d d' : Draft} {tokens : List Token} (hs : d.spot.Sound d.frames)
    (h : d.pushAll tokens = .ok d') : d'.spot.Sound d'.frames := by
  induction tokens generalizing d with
  | nil =>
    cases h
    exact hs
  | cons t tokens ih =>
    obtain ⟨d₁, hd₁, h⟩ := pushAll_cons_eq_ok_iff.1 h
    exact ih (sound_push hs hd₁) h

/-- The draft stands behind the last word, or behind the closing bracket, of an end tag of the wrong
kind. -/
def Draft.AtWrongEnd (d : Draft) : Prop :=
  ∃ opened kind frame outer, d.frames = frame :: outer ∧ frame.tag.kind ≠ kind ∧
    (d.spot = .tag opened (.ended kind) ∨ d.spot = .pending opened (.closes kind))

section

variable {cs layout : List Char} {frames : List Frame} {nodes : List Node} {n : Nat}

theorem viable_tag {spot : TagSpot} (h : LeadsTo cs ⟨frames, nodes, .tag n spot⟩)
    (hsound : spot.Sound frames) (hright : ¬ (⟨frames, nodes, .tag n spot⟩ : Draft).AtWrongEnd)
    (hlayout : ∀ c ∈ layout, isLayout c = true) (hmode : spot.mode ≠ .literal → layout = []) :
    Viable (cs ++ layout) := by
  -- Only in front of a literal there is layout.
  have hword : spot.mode = .tag → Viable cs → Viable (cs ++ layout) := by
    intro hspot hviable
    rwa [hmode (by rw [hspot]; decide), List.append_nil]
  cases spot with
  | opened => exact hword rfl (viable_opened h)
  | forRead =>
    have hspace := h.tag .nameStart rfl (shape_space .tag) rfl (by simp)
    exact hword rfl (viable_nameStart hspace).of_append
  | nameStart => exact hword rfl (viable_nameStart h)
  | otherRead =>
    have hspace := h.tag .otherStart rfl (shape_space .tag) rfl (by simp)
    exact hword rfl (viable_otherStart hspace).of_append
  | otherStart => exact hword rfl (viable_otherStart h)
  | named other name => exact hword rfl (viable_named h)
  | inStart other name => exact hword rfl (viable_inStart h)
  | inRead other name => exact hword rfl (viable_inRead h)
  | table other name spot => exact hword rfl (viable_table h hsound)
  | whereStart other name lookup =>
    have hwhere := h.tag (.whereRead other name lookup) rfl (shape_keyword .whereWord) rfl
      (by simp)
    exact hword rfl (viable_whereRead hwhere).of_append
  | whereRead other name lookup => exact hword rfl (viable_whereRead h)
  | condition other name lookup spot =>
    exact viable_comparison (endsInComparison_condition other name lookup) h hlayout hmode
  | ifRead => exact hword rfl (viable_ifRead h)
  | test spot => exact viable_comparison endsInComparison_test h hlayout hmode
  | endRead =>
    obtain ⟨frame, outer, rfl⟩ := List.exists_cons_of_ne_nil hsound
    exact hword rfl (viable_endRead h)
  | endStart =>
    obtain ⟨frame, outer, rfl⟩ := List.exists_cons_of_ne_nil hsound
    exact hword rfl (viable_endStart h)
  | ended kind =>
    obtain ⟨frame, outer, rfl⟩ := List.exists_cons_of_ne_nil hsound
    have hkind : frame.tag.kind = kind :=
      Decidable.byContradiction fun hkind => hright ⟨n, kind, frame, outer, rfl, hkind, .inl rfl⟩
    subst hkind
    exact hword rfl (viable_ended h)

end

/-- What was read can be completed, unless it ends in an end tag of the wrong kind. -/
theorem Leads.viable {cs layout : List Char} {tokens : List Token} {d : Draft}
    (h : Leads cs tokens d) (hsound : d.spot.Sound d.frames) (hright : ¬ d.AtWrongEnd)
    (hlayout : ∀ c ∈ layout, isLayout c = true) (hmode : d.spot.mode ≠ .literal → layout = []) :
    Viable (cs ++ layout) := by
  obtain ⟨frames, nodes, spot⟩ := d
  have hleads : LeadsTo cs ⟨frames, nodes, spot⟩ := ⟨tokens, h⟩
  have hword : spot.mode ≠ .literal → Viable cs → Viable (cs ++ layout) := by
    intro hspot hviable
    rwa [hmode hspot, List.append_nil]
  cases spot with
  | content => exact hword (by rintro ⟨⟩) (viable_of_settle hleads rfl)
  | expansion spot => exact hword (by rintro ⟨⟩) (viable_expansion hleads)
  | tag opened spot => exact viable_tag hleads hsound hright hlayout hmode
  | pending opened effect =>
    cases effect with
    | opens tag => exact hword (by rintro ⟨⟩) (viable_of_settle hleads rfl)
    | closes kind =>
      obtain ⟨frame, outer, rfl⟩ := List.exists_cons_of_ne_nil hsound
      have hkind : frame.tag.kind = kind := Decidable.byContradiction fun hkind =>
        hright ⟨opened, kind, frame, outer, rfl, hkind, .inr rfl⟩
      have hsettled : (⟨frame :: outer, nodes, .pending opened (.closes kind)⟩ : Draft).settle =
          .ok ⟨outer, .block frame.tag nodes.reverse :: frame.before, .content⟩ := by
        simp [Draft.settle, hkind]
      exact hword (by rintro ⟨⟩) (viable_of_settle hleads hsettled)

/-- A space goes on with plain text. -/
theorem span_space {w more : List Char} (h : textUnits.Spells w)
    (hmore : textUnits.span more = ([], more)) :
    textUnits.span (w ++ [' '] ++ more) = (w ++ [' '], more) := by
  have hspace : textUnits.span (' ' :: more) = ([' '], more) := by
    rw [Units.span]
    · have hplain : textUnits.plain ' ' more.head? = true := by simp [textUnits]
      simp only [if_pos (And.intro (by decide : ' ' ≠ '\\') hplain), hmore]
    · rintro _ _ ⟨⟩
  rw [List.append_assoc, List.singleton_append, h.span_append, hspace]
  intro c _ _
  simp [textUnits]

/-- Also a text at the end can be completed: more of it, and a tag behind it. -/
theorem Reached.viable {cs rest layout : List Char} {tokens : List Token} {d : Draft}
    (h : Reached cs rest tokens d) (hsound : d.spot.Sound d.frames) (hright : ¬ d.AtWrongEnd)
    (hlayout : ∀ c ∈ layout, isLayout c = true) (hmode : d.spot.mode ≠ .literal → layout = []) :
    Viable (cs ++ layout) := by
  cases h with
  | ended h => exact h.viable hsound hright hlayout hmode
  | @text cs w rest tokens base d h hbase hne hspan hpush =>
    obtain ⟨settled, hsettle, htake⟩ := Draft.push_eq_ok_iff.1 hpush
    obtain ⟨hspot, rfl⟩ := Draft.take?_text htake rfl
    have hspells := Units.spells_span textUnits_plain_none (w ++ rest)
    rw [hspan] at hspells
    have hends : ∀ more, textUnits.span (w ++ [' '] ++ (Bracket.tag.start.1 ++ more)) =
        (w ++ [' '], Bracket.tag.start.1 ++ more) :=
      fun more => span_space hspells (span_start more .tag)
    obtain ⟨frames, nodes, spot⟩ := settled
    cases hspot
    have htext : base.push ⟨.text (String.ofList (unescape (w ++ [' ']))), cs.length,
        String.ofList (w ++ [' '])⟩ =
          .ok ⟨frames, .text (String.ofList (unescape (w ++ [' ']))) :: nodes, .content⟩ :=
      Draft.push_eq_ok_iff.2 ⟨_, hsettle, rfl⟩
    have hopened := h.text_opening hbase (by simp) .tag (List.forall_mem_nil _) hends htext
      (Draft.push_of_take? rfl rfl)
    have hviable := viable_opened ⟨_, hopened⟩
    rw [hmode (by rintro ⟨⟩), List.append_nil]
    have := hviable.of_append
    rw [← List.append_assoc] at this
    exact this.of_append

end MailMerge.Markup

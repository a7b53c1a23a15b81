import Fabric.Proofs.Courses

/-! From bytes to records. Bytes that come in become lines (`arrivals`), and each line is read off once,
in the order in which they came; only the end of a session leaves some out. -/

namespace Fabric

open Fabric.Text

namespace Mark

/-- The line that is read off. -/
def line? : Mark → Option (List UInt8)
  | line l _ => some l
  | _ => none

def bytes : Mark → List UInt8
  | received bytes => bytes
  | _ => []

end Mark

namespace Timeline

def lines (l : Timeline) : List (List UInt8) := l.filterMap (·.mark.line?)

def bytes (l : Timeline) : List UInt8 := l.flatMap (·.mark.bytes)

theorem lines_at (ms : List Mark) (g : Feed) : lines (ms.map (⟨·, g⟩)) = ms.filterMap Mark.line? := by
  rw [lines, List.filterMap_map]
  rfl

theorem lines_append (l m : Timeline) : lines (l ++ m) = l.lines ++ m.lines := List.filterMap_append

theorem bytes_append (l m : Timeline) : bytes (l ++ m) = l.bytes ++ m.bytes := List.flatMap_append

theorem bytes_eq_inputs (l : Timeline) : l.bytes = l.inputs.flatMap Mark.bytes := by
  have hmark (a : Mark) : a.bytes = a.input?.toList.flatMap Mark.bytes := by cases a <;> simp [Mark.input?, Mark.bytes]
  induction l with
  | nil => rfl
  | cons m l ih =>
    rw [bytes, inputs] at ih
    rw [bytes, inputs, List.flatMap_cons, ih, hmark]
    cases h : m.mark.input? <;> simp [h]

end Timeline

namespace Feed

variable {f g : Feed} {e : Event} {c : Clock} {l : Timeline} {ms : List Mark} {turns : List Turn}

/-! ## What comes in -/

/-- The lines that have been whole, and the start of one that is not yet, after something has come in. -/
def intake (s : List (List UInt8) × List UInt8) : Mark → List (List UInt8) × List UInt8
  | .received bytes =>
    let pieces := splitAt (· == 0x0A) (s.2 ++ bytes)
    (s.1 ++ pieces.dropLast, pieces.getLast?.getD [])
  | .ended => (s.1, [])
  | _ => s

/-- All lines that are there to be read off, sooner or later. -/
def arrivals (f : Feed) (ins : List Mark) : List (List UInt8) := (ins.foldl intake (f.lines, f.rest)).1

/-- What a run brings to the feed from outside. -/
def brought (f : Feed) : List Turn → List Mark
  | [] => []
  | a :: r => f.inputs a ++ (f.turn a).brought r

/-- The lines that are whole once these bytes have come. -/
def linesWith (f : Feed) (bytes : List UInt8) : List (List UInt8) :=
  f.lines ++ (splitAt (· == 0x0A) (f.rest ++ bytes)).dropLast

theorem linesWith_receive (f : Feed) (bytes later : List UInt8) :
    (f.receive bytes).linesWith later = f.linesWith (bytes ++ later) := by
  rw [linesWith, linesWith, ← List.append_assoc f.rest, splitAt_append (f.rest ++ bytes),
    List.dropLast_append_of_ne_nil (splitAt_ne_nil _), ← List.append_assoc]
  rfl

/-! ## What a step does to the lines -/

/-- Bytes come in, lines are read off, or all that is there is dropped. -/
inductive Flow (f : Feed) (ms : List Mark) (g : Feed) : Prop where
  | into {bytes : List UInt8} : ms = [.received bytes] → g.lines = (f.receive bytes).lines →
      g.rest = (f.receive bytes).rest → Flow f ms g
  | off : (∀ m ∈ ms.filterMap Mark.input?, m.isHorizon = true) → f.lines = ms.filterMap Mark.line? ++ g.lines →
      g.rest = f.rest → Flow f ms g
  | ended : ms = [.ended] → g.lines = [] → g.rest = [] → Flow f ms g

theorem line_lost (es : List Event) : (es.map Mark.lost).filterMap Mark.line? = [] := by
  simp [List.filterMap_map, Mark.line?]

theorem settle_rest (f : Feed) (e : Event) : (f.settle e).1.rest = f.rest := by
  have hsettles := settles f e
  generalize f.settle e = r at *
  cases hsettles <;> rfl

theorem Act.flow (h : Act f ms g) : Flow f ms g := by
  cases h with
  | receive bytes => exact .into rfl rfl rfl
  | hangUp =>
    obtain ⟨w, hw⟩ := hangUp_eq f
    rw [hw]
    exact .off (by simp) rfl rfl
  | @pop e r =>
    exact .off (by simp [Mark.input?]) (settle_same { f with queue := r } e).1.symm (settle_rest _ e)
  | blank _ hlines | covered _ hlines | gap _ hlines => exact .off (by simp [Mark.input?]) hlines rfl
  | @bulk line r e es _ hlines =>
    have hread : (Mark.line line (some (.admitted e)) :: f.overflow es).filterMap Mark.line? = [line] :=
      congrArg (line :: ·) (line_lost _)
    refine .off ?_ (by rw [hread]; exact hlines) rfl
    rw [List.filterMap_cons_none rfl, overflow, input_lost]
    exact List.forall_mem_nil _
  | @single line r e _ hlines =>
    have hsame := (settle_same ({ f with lines := r }.pass e) e).1
    exact .off (by simp [Mark.input?]) (by rw [hsame]; exact hlines) (settle_rest _ e)
  | exhausted => exact .off (by simp [Mark.input?]) rfl rfl
  | horizon => exact .off (by simp [Mark.input?, Mark.isHorizon]) rfl rfl
  | disconnect | attach => exact .ended rfl rfl rfl

theorem Step.flow (h : Step c f ms g) : Flow f ms g := by
  cases h with
  | act _ h => exact h.flow
  | tick => exact .off (by simp) rfl rfl
  | @release before after h =>
    have hsilent := releaseMarks_silent f h
    have hlines : (f.releaseMarks h).filterMap Mark.line? = [] := by
      rw [releaseMarks, List.filterMap_append, overflow, line_lost, List.filterMap_map]
      simp [Function.comp_def, Mark.line?]
    exact .off (by simp [hsilent.1]) (by rw [hlines]; rfl) rfl

/-- The record that is let in is on the line. -/
theorem Step.record {line : List UInt8} (h : Step c f ms g) (hm : .line line (some (.admitted e)) ∈ ms) :
    record? line = some e := by
  cases h with
  | act _ h =>
    cases h with
    | bulk _ _ hl =>
      rcases List.mem_cons.mp hm with heq | hm
      · cases heq
        exact hl
      · obtain ⟨_, hlost⟩ := mem_overflow hm
        cases hlost
    | single _ _ hl =>
      obtain ⟨rfl, rfl⟩ : line = _ ∧ e = _ := by simpa using hm
      exact hl
    | _ => simp at hm
  | tick => cases hm
  | release => rcases mem_releaseMarks hm with ⟨_, heq⟩ | ⟨_, heq⟩ <;> cases heq

/-! ## Along a run -/

theorem foldl_intake_horizon {ins : List Mark} (h : ∀ m ∈ ins, m.isHorizon = true)
    (s : List (List UInt8) × List UInt8) : ins.foldl intake s = s := by
  induction ins with
  | nil => rfl
  | cons m ins ih =>
    obtain ⟨hm, hins⟩ := List.forall_mem_cons.mp h
    have hsame : intake s m = s := by cases m <;> first | rfl | cases hm
    rw [List.foldl_cons, hsame, ih hins]

/-- Lines are read off in the order in which they came, and what is left of them comes after that. -/
theorem Steps.arrivals (hs : Steps c f l g) : (l.lines ++ g.lines).Sublist (f.arrivals l.inputs) ∧
    g.rest = (l.inputs.foldl intake (f.lines, f.rest)).2 := by
  induction hs with
  | refl => exact ⟨List.Sublist.refl _, rfl⟩
  | @snoc g g' l ms _ hstep ih =>
    obtain ⟨hlines, hrest⟩ := ih
    unfold Feed.arrivals at hlines ⊢
    rw [Timeline.inputs_append, List.foldl_append, Timeline.lines_append, Timeline.inputs_at, Timeline.lines_at]
    generalize List.foldl intake (f.lines, f.rest) l.inputs = s at *
    cases hstep.flow with
    | into hms hlines' hrest' =>
      subst hms
      rw [hlines', hrest', receive, hrest]
      refine ⟨?_, rfl⟩
      rw [List.filterMap_cons_none rfl, List.filterMap_nil, List.append_nil, ← List.append_assoc]
      exact hlines.append_right _
    | off hms hlines' hrest' =>
      rw [foldl_intake_horizon hms, List.append_assoc, ← hlines', hrest']
      exact ⟨hlines, hrest⟩
    | ended hms hlines' hrest' =>
      subst hms
      rw [hlines', hrest', List.append_nil]
      refine ⟨?_, rfl⟩
      rw [List.filterMap_cons_none rfl, List.filterMap_nil, List.append_nil]
      exact (List.sublist_append_left _ _).trans hlines

/-- While the session goes on no line is left out. -/
theorem Steps.linesWith (hs : Steps c f l g) (hend : ∀ m ∈ l, m.mark.isEnd = false) (later : List UInt8) :
    f.linesWith (l.bytes ++ later) = l.lines ++ g.linesWith later := by
  induction hs generalizing later with
  | refl => rfl
  | @snoc g g' l ms _ hstep ih =>
    obtain ⟨hl, hms⟩ := List.forall_mem_append.mp hend
    have hbytes : Timeline.bytes (ms.map (⟨·, g'⟩)) = ms.flatMap Mark.bytes := List.flatMap_map ..
    rw [Timeline.bytes_append, Timeline.lines_append, List.append_assoc, ih hl, Timeline.lines_at, hbytes,
      List.append_assoc]
    congr 1
    cases hstep.flow with
    | @into bytes hms hlines hrest =>
      subst hms
      have hreceive : g'.linesWith later = (g.receive bytes).linesWith later := by
        rw [Feed.linesWith, Feed.linesWith, hlines, hrest]
      rw [List.flatMap_singleton, hreceive, linesWith_receive]
      rfl
    | off hms hlines hrest =>
      have hnone : ms.flatMap Mark.bytes = [] := by
        refine List.flatMap_eq_nil_iff.mpr fun m hm => ?_
        cases m with
        | received bytes => cases hms (.received bytes) (List.mem_filterMap.mpr ⟨_, hm, rfl⟩)
        | _ => rfl
      rw [hnone, List.nil_append, Feed.linesWith, Feed.linesWith, hlines, hrest, List.append_assoc]
    | ended hms _ _ =>
      subst hms
      simp [Mark.isEnd] at hms

theorem Course.inputs (h : Course c f turns l) : l.inputs = f.brought turns := by
  induction h with
  | nil => rfl
  | cons _ hin _ _ ih => rw [Timeline.inputs_append, hin, ih, brought]

theorem Course.told (h : Course c f turns l) : l.told = (f.replies turns).flatMap Delivery.told := by
  induction h with
  | nil => rfl
  | cons _ _ htold _ ih => rw [Timeline.told_append, htold, ih, replies, List.flatMap_append]

def Turn.bytes : Turn → List UInt8
  | receive bytes => bytes
  | _ => []

theorem bytes_inputs (f : Feed) (a : Turn) : (f.inputs a).flatMap Mark.bytes = a.bytes := by
  cases a with
  | receive bytes => exact List.flatMap_singleton ..
  | connect site =>
    unfold inputs
    dsimp only
    split <;> rfl
  | _ => rfl

theorem Course.bytes (h : Course c f turns l) : l.bytes = turns.flatMap Turn.bytes := by
  rw [Timeline.bytes_eq_inputs, h.inputs]
  clear h
  induction turns generalizing f with
  | nil => rfl
  | cons a r ih => rw [brought, List.flatMap_append, bytes_inputs, ih, List.flatMap_cons]

/-- The record on a line claims to be one that the feed held. -/
def poses (line : List UInt8) : Bool := (record? line).any (·.debounced = some true)

theorem Steps.records (hs : Steps c f l g) : ∀ m ∈ l, ∀ line e, m.mark = .line line (some (.admitted e)) →
    record? line = some e := by
  induction hs with
  | refl => simp
  | snoc _ hstep ih =>
    refine List.forall_mem_append.mpr ⟨ih, fun m hm line e hmark => ?_⟩
    obtain ⟨a, ha, rfl⟩ := List.mem_map.mp hm
    exact hstep.record (hmark ▸ ha)

/-- If no line that comes in claims that, no record that is let in does. -/
theorem Course.raw (h : Course c f turns l)
    (raw : ∀ line ∈ f.arrivals (f.brought turns), poses line = false) :
    ∀ m ∈ l, m.mark.isPosed = false := by
  intro m hm
  refine Bool.eq_false_iff.mpr fun hposed => ?_
  obtain ⟨line, e, hmark, he⟩ : ∃ line e, m.mark = .line line (some (.admitted e)) ∧ e.debounced = some true := by
    cases hmark : m.mark with
    | line line r =>
      rcases r with _ | e | e | _ <;> simp [hmark, Mark.isPosed] at hposed
      exact ⟨line, e, rfl, hposed⟩
    | _ => simp [hmark, Mark.isPosed] at hposed
  have hread : line ∈ l.lines := List.mem_filterMap.mpr ⟨m, hm, by rw [hmark]; rfl⟩
  have harrived := h.steps.arrivals.1.subset (List.mem_append_left _ hread)
  rw [h.inputs] at harrived
  have hrecord := h.steps.records m hm line e hmark
  simpa [poses, hrecord, he] using raw line harrived

end Feed
end Fabric

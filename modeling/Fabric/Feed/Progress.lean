import Fabric.Feed.Delivery

/-! A feed that delivers runs down: a delivery uses up a queued event or a line, so only finitely
many come between two arrivals of bytes or falls due. -/

namespace Fabric.Feed

/-- What a feed has at hand, lines counting for more than queued events. -/
def stock (f : Feed) : Nat × Nat := (f.lines.length, f.queue.length)

def Less (a b : Nat × Nat) : Prop := Prod.Lex (· < ·) (· < ·) a b

theorem settle_same (f : Feed) (e : Event) :
    (f.settle e).1.lines = f.lines ∧ (f.settle e).1.queue = f.queue := by
  unfold settle
  split
  · split
    · simp [dedupe]
    · unfold debounce
      dsimp only
      split <;> simp [dedupe, hold, drop]
  · simp

theorem drain_lines (f : Feed) (q : List Event) : (f.drain q).1.lines = f.lines := by
  induction q generalizing f with
  | nil => rfl
  | cons e r ih =>
    have h := (settle_same { f with queue := r } e).1
    unfold drain
    split
    · rename_i g _ heq; rw [heq] at h; exact h
    · rename_i g heq; rw [heq] at h; rw [ih]; exact h

theorem drain_queue_lt {f g : Feed} {q : List Event} {e : Event}
    (h : f.drain q = (g, some e)) : g.queue.length < q.length := by
  induction q generalizing f with
  | nil => simp [drain] at h
  | cons x r ih =>
    have hs := (settle_same { f with queue := r } x).2
    unfold drain at h
    split at h
    · rename_i g' _ heq
      rw [heq] at hs
      cases h
      simp at hs
      simp [hs]
    · have := ih h
      simp only [List.length_cons]
      omega

theorem take_lines (f : Feed) (e : Event) : (f.take e).1.lines = f.lines := by
  unfold take
  split
  · dsimp only
    rw [drain_lines]
    rfl
  · exact (settle_same f e).1

theorem readLines_lt {f g : Feed} {ls : List (List UInt8)} {d : Except Fault Event}
    (h : f.readLines ls = (g, some d)) : g.lines.length < ls.length := by
  induction ls generalizing f with
  | nil => simp [readLines] at h
  | cons l r ih =>
    unfold readLines at h
    dsimp only at h
    split at h
    · have := ih h
      simp only [List.length_cons]; omega
    · rename_i e _
      split at h
      · have := ih h
        simp only [List.length_cons]; omega
      · cases h
        simp [pass]
      · have ht := take_lines (pass { f with lines := r } e) e
        split at h
        · rename_i heq
          rw [heq] at ht
          cases h
          simp [pass] at ht
          simp [ht]
        · have := ih h
          simp only [List.length_cons]; omega

theorem drain_none {f g : Feed} {q : List Event} (h : f.drain q = (g, none)) :
    g.lines = f.lines := by
  have := drain_lines f q
  rwa [h] at this

theorem atWire_ne_event (f : Feed) (e : Event) : f.atWire ≠ .event e := by
  unfold atWire
  split <;> simp

theorem atWire_ne_gap (f : Feed) (a b : UInt64) : f.atWire ≠ .fault (.gap a b) := by
  unfold atWire
  split <;> simp

/-- After a delivery there is less at hand. -/
theorem poll_event_less {f g : Feed} {e : Event} (h : f.poll = (g, .event e)) :
    Less g.stock f.stock := by
  unfold poll at h
  split at h
  · rename_i hd
    cases h
    have hl := drain_lines f f.queue
    rw [hd] at hl
    have hq := drain_queue_lt hd
    simp only at hl
    unfold stock Less
    rw [hl]
    exact Prod.Lex.right _ hq
  · rename_i g' hd
    split at h
    · rename_i hr
      cases h
      have hl := readLines_lt hr
      exact Prod.Lex.left _ _ (by rw [drain_none hd] at hl; exact hl)
    · cases h
    · exact absurd (congrArg Prod.snd h) (atWire_ne_event _ _)

/-- After a gap there is less at hand, too. -/
theorem poll_gap_less {f g : Feed} {a b : UInt64} (h : f.poll = (g, .fault (.gap a b))) :
    Less g.stock f.stock := by
  unfold poll at h
  split at h
  · cases h
  · rename_i g' hd
    split at h
    · cases h
    · rename_i hr
      cases h
      have hl := readLines_lt hr
      exact Prod.Lex.left _ _ (by rw [drain_none hd] at hl; exact hl)
    · exact absurd (congrArg Prod.snd h) (atWire_ne_gap _ _ _)

end Fabric.Feed

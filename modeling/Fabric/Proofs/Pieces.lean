import Fabric.Text.Blank

/-! Text cut at separators. A run without a separator is one piece, a separator ends a piece, and
what comes later goes on where the last piece stopped; lines of bytes, lines of text and words are
all read through these. -/

namespace Fabric.Text

variable {α : Type} {p : α → Bool}

theorem splitAt_ne_nil (l : List α) : splitAt p l ≠ [] := by
  cases l with
  | nil => simp [splitAt]
  | cons b r =>
    unfold splitAt
    split
    · simp
    · split <;> simp

theorem splitAt_clean {l : List α} (h : ∀ c ∈ l, p c = false) : splitAt p l = [l] := by
  induction l with
  | nil => rfl
  | cons b r ih => simp [splitAt, h b (by simp), ih fun c hc => h c (by simp [hc])]

/-- A separator ends the first piece. -/
theorem splitAt_piece {l : List α} (h : ∀ c ∈ l, p c = false) {s : α} (hs : p s = true)
    (r : List α) : splitAt p (l ++ s :: r) = l :: splitAt p r := by
  induction l with
  | nil =>
    obtain ⟨w, ws, hr⟩ := List.exists_cons_of_ne_nil (splitAt_ne_nil (p := p) r)
    simp [splitAt, hr, hs]
  | cons b l ih => simp [splitAt, h b (by simp), ih fun c hc => h c (by simp [hc])]

/-- What comes later goes on where the last piece stopped. -/
theorem splitAt_append (x y : List α) :
    splitAt p (x ++ y) =
      (splitAt p x).dropLast ++ splitAt p (((splitAt p x).getLast?.getD []) ++ y) := by
  induction x with
  | nil => rfl
  | cons b r ih =>
    obtain ⟨w, ws, hr⟩ := List.exists_cons_of_ne_nil (splitAt_ne_nil (p := p) r)
    rw [hr] at ih
    rw [List.cons_append]
    by_cases hb : p b = true
    · obtain ⟨v, vs, hv⟩ := List.exists_cons_of_ne_nil (splitAt_ne_nil (p := p) (r ++ y))
      simp only [splitAt, hr, hv, hb, if_true]
      rw [← hv, ih]
      rfl
    · cases ws with
      | nil =>
        have hsame : splitAt p (r ++ y) = splitAt p (w ++ y) := ih
        simp [splitAt, hr, hb, hsame]
      | cons v vs => simp [splitAt, hr, hb, ih]

/-- No piece has a separator in it. -/
theorem splitAt_pieces (l : List α) : ∀ w ∈ splitAt p l, ∀ c ∈ w, p c = false := by
  induction l with
  | nil => simp [splitAt]
  | cons b r ih =>
    obtain ⟨w, ws, hr⟩ := List.exists_cons_of_ne_nil (splitAt_ne_nil (p := p) r)
    rw [hr] at ih
    intro v hv
    by_cases hb : p b = true
    · simp only [splitAt, hr, hb, if_true] at hv
      rcases List.mem_cons.mp hv with rfl | hv
      · simp
      · exact ih v hv
    · simp only [splitAt, hr, hb] at hv
      rcases List.mem_cons.mp hv with rfl | hv
      · intro c hc
        rcases List.mem_cons.mp hc with rfl | hc
        · simpa using hb
        · exact ih w (by simp) c hc
      · exact ih v (by simp [hv])

theorem beq_sep [BEq α] [LawfulBEq α] {s : α} {l : List α} (h : s ∉ l) :
    ∀ c ∈ l, (c == s) = false := by
  intro c hc
  rw [beq_eq_false_iff_ne]
  rintro rfl
  exact h hc

/-- A separator that is in neither of two pieces tells where they end. -/
theorem append_sep_inj [BEq α] [LawfulBEq α] {s : α} {x y x' y' : List α} (hx : s ∉ x) (hx' : s ∉ x')
    (h : x ++ s :: y = x' ++ s :: y') : x = x' ∧ y = y' := by
  have hcut := congrArg (splitAt (· == s)) h
  rw [splitAt_piece (beq_sep hx) (by simp), splitAt_piece (beq_sep hx') (by simp)] at hcut
  obtain rfl := (List.cons.inj hcut).1
  exact ⟨rfl, (List.cons.inj (List.append_cancel_left h)).2⟩

/-- Pieces put together with a separator between neighbours are cut apart again. -/
theorem splitAt_intercalate {s : α} (hs : p s = true) {ls : List (List α)} (filled : ls ≠ [])
    (clean : ∀ l ∈ ls, ∀ c ∈ l, p c = false) : splitAt p ([s].intercalate ls) = ls := by
  induction ls with
  | nil => exact absurd rfl filled
  | cons l r ih =>
    have hl := clean l (by simp)
    cases r with
    | nil => simpa using splitAt_clean hl
    | cons m r =>
      have hr := ih (by simp) fun x hx => clean x (by simp [hx])
      rw [List.intercalate_cons_cons, List.append_assoc, List.singleton_append, splitAt_piece hl hs, hr]

/-- The pieces between separators, put together again with them. -/
theorem intercalate_splitAt [BEq α] [LawfulBEq α] (s : α) (l : List α) :
    [s].intercalate (splitAt (· == s) l) = l := by
  induction l with
  | nil => simp [splitAt]
  | cons b r ih =>
    obtain ⟨w, ws, hr⟩ := List.exists_cons_of_ne_nil (splitAt_ne_nil (p := (· == s)) r)
    rw [hr] at ih
    rw [splitAt, hr]
    dsimp only
    by_cases hb : b = s
    · subst hb
      rw [if_pos (by simp), List.intercalate_cons_cons, ih]
      rfl
    · rw [if_neg (by simpa using hb)]
      cases ws with
      | nil => simpa using ih
      | cons v vs =>
        rw [List.intercalate_cons_cons] at ih ⊢
        rw [← ih]
        rfl

theorem splitAt_sep {s : α} (hs : p s = true) (x y : List α) :
    splitAt p (x ++ s :: y) = splitAt p x ++ splitAt p y := by
  induction x with
  | nil => exact splitAt_piece (l := []) (by simp) hs y
  | cons b r ih =>
    obtain ⟨w, ws, hr⟩ := List.exists_cons_of_ne_nil (splitAt_ne_nil (p := p) r)
    rw [List.cons_append, splitAt, ih, splitAt, hr, List.cons_append]
    dsimp only
    split <;> rfl

/-! ## Cuts -/

/-- The first separator is the one behind a piece without any. -/
theorem cut?_piece {l : List α} (h : ∀ c ∈ l, p c = false) {s : α} (hs : p s = true) (r : List α) :
    cut? p (l ++ s :: r) = some (l, r) := by
  induction l with
  | nil => exact if_pos hs
  | cons b l ih =>
    rw [List.cons_append, cut?, if_neg (by simp [h b]), ih fun c hc => h c (List.mem_cons_of_mem b hc)]
    rfl

theorem cut?_clean {l : List α} (h : ∀ c ∈ l, p c = false) : cut? p l = none := by
  induction l with
  | nil => rfl
  | cons b l ih =>
    rw [cut?, if_neg (by simp [h b]), ih fun c hc => h c (List.mem_cons_of_mem b hc)]
    rfl

/-! ## Blanks -/

theorem words_sep {b : Char} (hb : isBlank b = true) (x y : List Char) :
    words (x ++ b :: y) = words x ++ words y := by
  rw [words, splitAt_sep hb, List.filter_append]
  rfl

theorem words_blank {b : Char} (hb : isBlank b = true) (r : List Char) : words (b :: r) = words r := by
  have hpiece : splitAt isBlank (b :: r) = [] :: splitAt isBlank r :=
    splitAt_piece (l := []) (by simp) hb r
  rw [words, hpiece, List.filter_cons_of_neg (by simp), words]

/-- What stands in front of the first blank is the first word. -/
theorem words_head? {w r : List Char} (filled : w ≠ []) (h : ∀ c ∈ w, isBlank c = false)
    (hr : ∀ c ∈ r.head?, isBlank c = true) : (words (w ++ r)).head? = some w := by
  cases r with
  | nil => simp [words, splitAt_clean h, filled]
  | cons b r => simp [words, splitAt_piece h (hr b rfl), filled]

theorem trimEnd_prefix (l : List Char) : trimEnd l <+: l := by
  have h := List.reverse_prefix.mpr (List.dropWhile_suffix (l := l.reverse) isBlank)
  rwa [List.reverse_reverse] at h

/-- Nothing up to a character that shows is lost. -/
theorem trimEnd_visible {c : Char} (hc : isBlank c = false) (x y : List Char) :
    trimEnd (x ++ c :: y) = x ++ c :: trimEnd y := by
  have hx : (c :: x.reverse).dropWhile isBlank = c :: x.reverse :=
    List.dropWhile_cons_of_neg (by simp [hc])
  unfold trimEnd
  rw [List.reverse_append, List.reverse_cons, List.append_assoc, List.singleton_append,
    List.dropWhile_append, hx]
  split
  next hy => simp [List.isEmpty_iff.mp hy]
  next => simp

theorem trimStart_visible {c : Char} (hc : isBlank c = false) (r : List Char) :
    trimStart (c :: r) = c :: r :=
  List.dropWhile_cons_of_neg (by simp [hc])

theorem trimStart_append {l : List Char} (h : ∀ c ∈ l, isBlank c = true) (r : List Char) :
    trimStart (l ++ r) = trimStart r := by
  induction l with
  | nil => rfl
  | cons b l ih =>
    rw [List.cons_append, trimStart, List.dropWhile_cons_of_pos (h b (by simp))]
    exact ih fun c hc => h c (by simp [hc])

theorem trim_append_blank {b : Char} (hb : isBlank b = true) (l : List Char) : trim (l ++ [b]) = trim l := by
  have hend (r : List Char) : trimEnd (r ++ [b]) = trimEnd r := by
    rw [trimEnd, List.reverse_append, List.reverse_singleton, List.singleton_append,
      List.dropWhile_cons_of_pos hb]
    rfl
  unfold trim trimStart
  rw [List.dropWhile_append]
  split
  next hnil => rw [List.isEmpty_iff.mp hnil, List.dropWhile_cons_of_pos hb, List.dropWhile_nil]
  next => exact hend _

/-- Blanks around a text are trimmed away, and nothing else is. -/
theorem trim_blanks {front back : List Char} (hfront : ∀ c ∈ front, isBlank c = true)
    (hback : ∀ c ∈ back, isBlank c = true) (l : List Char) : trim (front ++ l ++ back) = trim l := by
  induction back generalizing l with
  | nil => rw [List.append_nil, trim, trimStart_append hfront, trim]
  | cons b r ih =>
    have hr : ∀ c ∈ r, isBlank c = true := fun c hc => hback c (List.mem_cons_of_mem b hc)
    have hb : isBlank b = true := hback b List.mem_cons_self
    rw [List.append_cons, List.append_assoc front, ih hr, trim_append_blank hb]

theorem exists_trimStart (l : List Char) :
    ∃ front, l = front ++ trimStart l ∧ ∀ c ∈ front, isBlank c = true :=
  ⟨l.takeWhile isBlank, List.takeWhile_append_dropWhile.symm, fun c hc => List.all_eq_true.mp List.all_takeWhile c hc⟩

theorem exists_trimEnd (l : List Char) : ∃ back, l = trimEnd l ++ back ∧ ∀ c ∈ back, isBlank c = true := by
  obtain ⟨front, hl, hfront⟩ := exists_trimStart l.reverse
  refine ⟨front.reverse, ?_, fun c hc => hfront c (List.mem_reverse.mp hc)⟩
  have hback := congrArg List.reverse hl
  rwa [List.reverse_reverse, List.reverse_append] at hback

theorem exists_trim (l : List Char) :
    ∃ front back, l = front ++ trim l ++ back ∧ (∀ c ∈ front, isBlank c = true) ∧
      ∀ c ∈ back, isBlank c = true := by
  obtain ⟨front, hl, hfront⟩ := exists_trimStart l
  obtain ⟨back, hstart, hback⟩ := exists_trimEnd (trimStart l)
  refine ⟨front, back, ?_, hfront, hback⟩
  rw [List.append_assoc, trim, ← hstart, ← hl]

theorem trim_trimStart (l : List Char) : trim (trimStart l) = trim l := by
  obtain ⟨front, hl, hfront⟩ := exists_trimStart l
  have hempty : ∀ c ∈ ([] : List Char), isBlank c = true := nofun
  have htrim := trim_blanks hfront hempty (trimStart l)
  rwa [List.append_nil, ← hl, eq_comm] at htrim

theorem trim_trimEnd (l : List Char) : trim (trimEnd l) = trim l := by
  obtain ⟨back, hl, hback⟩ := exists_trimEnd l
  have hempty : ∀ c ∈ ([] : List Char), isBlank c = true := nofun
  have htrim := trim_blanks hempty hback (trimEnd l)
  rwa [List.nil_append, ← hl, eq_comm] at htrim

/-- Trimming stays on the two sides of a character that shows. -/
theorem trim_visible {s : Char} (hs : isBlank s = false) (a b : List Char) :
    trim (a ++ s :: b) = trimStart a ++ s :: trimEnd b := by
  have hstart : trimStart (a ++ s :: b) = trimStart a ++ s :: b := by
    obtain ⟨front, ha, hfront⟩ := exists_trimStart a
    unfold trimStart
    rw [List.dropWhile_append]
    split
    next hnil => rw [List.isEmpty_iff.mp hnil, List.dropWhile_cons_of_neg (by simp [hs]), List.nil_append]
    next => rfl
  rw [trim, hstart, trimEnd_visible hs]

/-- Text without a blank is its own trimming. -/
theorem trim_clean {l : List Char} (h : ∀ c ∈ l, isBlank c = false) : trim l = l := by
  cases l with
  | nil => rfl
  | cons c r =>
    have hlast := h ((c :: r).getLast (by simp)) (List.getLast_mem _)
    have happ := trimEnd_visible hlast (c :: r).dropLast []
    have hnil : trimEnd [] = [] := rfl
    rw [hnil, List.dropLast_concat_getLast] at happ
    rw [trim, trimStart_visible (h c (by simp)), happ]

end Fabric.Text

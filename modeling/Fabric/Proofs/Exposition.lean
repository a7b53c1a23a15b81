import Fabric.Proofs.Linewise
import Fabric.Proofs.Numerals

/-! Writing samples as text and reading them back. The text of a label may be anything at all: the
three characters that would end it early are escaped (`escaped`), and the reader of labels undoes just
that (`labelsFrom?_escaped`). One line then says one sample (`lineSample?_sample`), no line runs into
the next (`Line.ended`), and a whole export says of each metric what was written of it
(`read_exposition`). -/

namespace Fabric.Metrics

open Fabric.Text

/-! ## What is written -/

/-- A name that a line can start with and that a reader can tell from what follows. -/
structure MetricName where
  first : Char
  rest : List Char
  visible : first ≠ '#'
  plain : ∀ c ∈ first :: rest, endsName c = false

def isLabelStart (c : Char) : Bool := c.isAlpha || c == '_'

def isLabelChar (c : Char) : Bool := c.isAlphanum || c == '_'

structure LabelName where
  first : Char
  rest : List Char
  start : isLabelStart first = true
  plain : ∀ c ∈ rest, isLabelChar c = true

/-- A word that reads as a number. -/
structure Value where
  text : List Char
  value : Float
  reads : value? text = some value

structure SampleLine where
  name : MetricName
  /-- None if the braces are left out. -/
  labels : Option (List (LabelName × String))
  value : Value
  stamp : Option (List Char)
  unended : ∀ s ∈ stamp, '\n' ∉ s

/-- Blanks within a line. -/
structure Margin where
  text : List Char
  blank : ∀ c ∈ text, isBlank c = true
  unended : '\n' ∉ text

inductive Line where
  | sample (w : SampleLine)
  | comment (margin : Margin) (text : List Char) (unended : '\n' ∉ text)
  | blank (margin : Margin)

def escaped (c : Char) : List Char :=
  if c = '\\' then ['\\', '\\']
  else if c = '"' then ['\\', '"']
  else if c = '\n' then ['\\', 'n']
  else [c]

def MetricName.text (n : MetricName) : List Char := n.first :: n.rest

def LabelName.text (n : LabelName) : List Char := n.first :: n.rest

def pairText (l : LabelName × String) : List Char :=
  l.1.text ++ '=' :: '"' :: (l.2.toList.flatMap escaped ++ ['"'])

def labelsText : Option (List (LabelName × String)) → List Char
  | none => []
  | some ls => '\x7b' :: ([','].intercalate (ls.map pairText) ++ ['\x7d'])

def stampText : Option (List Char) → List Char
  | none => []
  | some s => ' ' :: s

def SampleLine.text (w : SampleLine) : List Char :=
  w.name.text ++ (labelsText w.labels ++ ' ' :: (w.value.text ++ stampText w.stamp))

def Line.text : Line → List Char
  | sample w => w.text
  | comment margin text _ => margin.text ++ '#' :: text
  | blank margin => margin.text

def exposition (ws : List Line) : String := String.ofList (['\n'].intercalate (ws.map Line.text))

/-- The label map. Of two labels with one name the later one counts. -/
def labelsOf (ls : List (LabelName × String)) : Table String String :=
  Table.ofList (ls.map fun l => (String.ofList l.1.text, l.2))

def SampleLine.sample (w : SampleLine) : Sample := ⟨labelsOf (w.labels.getD []), w.value.value⟩

def Line.said? : Line → Option (String × Sample)
  | sample w => some (String.ofList w.name.text, w.sample)
  | comment .. => none
  | blank _ => none

/-- The samples of one metric, in the order in which they are written. -/
def samplesOf (name : String) (ws : List Line) : List Sample :=
  ws.filterMap fun w => (w.said?.filter (·.1 = name)).map (·.2)

/-! ## Numbers are words -/

theorem exponent?_clean {l : List Char} {e : Int} (h : Decimal.exponent? l = some e) :
    ∀ c ∈ l, isBlank c = false := by
  unfold Decimal.exponent? at h
  obtain ⟨n, hn, -⟩ := Option.map_eq_some_iff.mp h
  obtain ⟨m, hm, -⟩ := Option.bind_eq_some_iff.mp hn
  split at hm
  next r => exact List.forall_mem_cons.mpr ⟨by decide, digits?_clean hm⟩
  next r => exact List.forall_mem_cons.mpr ⟨by decide, digits?_clean hm⟩
  next => exact digits?_clean hm

/-- An exponent, or nothing at all, behind the digits. -/
theorem exponentTail_clean {r : List Char} {f : Int → Float} {y : Option Float} {x : Float}
    (h : (match r with
      | [] => y
      | c :: r => if c = 'e' ∨ c = 'E' then (Decimal.exponent? r).map f else none) = some x) :
    ∀ c ∈ r, isBlank c = false := by
  cases r with
  | nil => simp
  | cons c r =>
    by_cases hc : c = 'e' ∨ c = 'E'
    · simp only [if_pos hc] at h
      obtain ⟨e, he, -⟩ := Option.map_eq_some_iff.mp h
      refine List.forall_mem_cons.mpr ⟨?_, exponent?_clean he⟩
      rcases hc with rfl | rfl <;> decide
    · simp [hc] at h

theorem takeWhile_digits (l : List Char) : ∀ c ∈ l.takeWhile Decimal.isDigit, isBlank c = false := by
  intro c hc
  have hd := List.all_eq_true.mp (List.all_takeWhile (p := Decimal.isDigit) (l := l)) c hc
  obtain ⟨d, hd⟩ := Option.isSome_iff_exists.mp hd
  exact digit?_clean hd

theorem of_dropWhile_digits {l : List Char}
    (h : ∀ c ∈ l.dropWhile Decimal.isDigit, isBlank c = false) : ∀ c ∈ l, isBlank c = false := by
  rw [← List.takeWhile_append_dropWhile (p := Decimal.isDigit) (l := l), List.forall_mem_append]
  exact ⟨takeWhile_digits l, h⟩

theorem unsignedFloat?_word {w : List Char} {x : Float} (h : Decimal.unsignedFloat? w = some x) :
    w ≠ [] ∧ ∀ c ∈ w, isBlank c = false := by
  refine ⟨?_, of_dropWhile_digits ?_⟩
  · rintro rfl
    simp [Decimal.unsignedFloat?] at h
  unfold Decimal.unsignedFloat? at h
  generalize List.dropWhile Decimal.isDigit w = r at h ⊢
  dsimp only at h
  split at h
  next r =>
    split at h
    next => exact absurd h (by simp)
    next => exact List.forall_mem_cons.mpr ⟨by decide, of_dropWhile_digits (exponentTail_clean h)⟩
  next =>
    split at h
    next => exact absurd h (by simp)
    next => exact exponentTail_clean h

theorem toLower_blank {c : Char} (h : isBlank c = true) : c.toLower = c := by
  have hc : ¬ (c.val ≥ 'A'.val ∧ c.val ≤ 'Z'.val) := by
    rintro ⟨low, high⟩
    rw [ge_iff_le, UInt32.le_iff_toNat_le] at low
    rw [UInt32.le_iff_toNat_le] at high
    have hn : c.val.toNat = c.toNat := rfl
    have hA : 'A'.val.toNat = 65 := rfl
    have hZ : 'Z'.val.toNat = 90 := rfl
    rw [isBlank_ascii (by omega) (by omega)] at h
    exact absurd h (by decide)
  unfold Char.toLower
  exact dif_neg hc

theorem clean_of_lower {l : List Char} {name : String} (hname : ∀ c ∈ name.toList, isBlank c = false)
    (h : String.ofList (l.map Decimal.asciiLower) = name) : ∀ c ∈ l, isBlank c = false := by
  subst h
  intro c hc
  by_cases hb : isBlank c = true
  · have hm : c.toLower ∈ l.map Decimal.asciiLower := List.mem_map_of_mem (f := Decimal.asciiLower) hc
    rw [toLower_blank hb] at hm
    exact hname c (by simpa using hm)
  · simpa using hb

theorem clean_of_all {l : List Char} (h : l.all (!isBlank ·) = true) : ∀ c ∈ l, isBlank c = false := by
  intro c hc
  simpa using List.all_eq_true.mp h c hc

/-- What follows the sign is the name of a number or digits. -/
theorem size_word {b : List Char} {x : Float}
    (h : (if String.ofList (b.map Decimal.asciiLower) = "inf" ∨
          String.ofList (b.map Decimal.asciiLower) = "infinity" then some Decimal.infinity
        else if String.ofList (b.map Decimal.asciiLower) = "nan" then some Decimal.notANumber
        else Decimal.unsignedFloat? b) = some x) : b ≠ [] ∧ ∀ c ∈ b, isBlank c = false := by
  by_cases hinf : String.ofList (b.map Decimal.asciiLower) = "inf" ∨
      String.ofList (b.map Decimal.asciiLower) = "infinity"
  · refine ⟨?_, ?_⟩
    · rintro rfl
      exact absurd hinf (by decide)
    · rcases hinf with hinf | hinf
      · exact clean_of_lower (clean_of_all (by decide)) hinf
      · exact clean_of_lower (clean_of_all (by decide)) hinf
  by_cases hnan : String.ofList (b.map Decimal.asciiLower) = "nan"
  · refine ⟨?_, clean_of_lower (clean_of_all (by decide)) hnan⟩
    rintro rfl
    exact absurd hnan (by decide)
  · rw [if_neg hinf, if_neg hnan] at h
    exact unsignedFloat?_word h

theorem float?_word {w : List Char} {x : Float} (h : Decimal.float? w = some x) :
    w ≠ [] ∧ ∀ c ∈ w, isBlank c = false := by
  unfold Decimal.float? at h
  obtain ⟨y, hy, -⟩ := Option.map_eq_some_iff.mp h
  split at hy
  next r => exact ⟨by simp, List.forall_mem_cons.mpr ⟨by decide, (size_word hy).2⟩⟩
  next r => exact ⟨by simp, List.forall_mem_cons.mpr ⟨by decide, (size_word hy).2⟩⟩
  next => exact size_word hy

theorem value?_word {w : List Char} {x : Float} (h : value? w = some x) :
    w ≠ [] ∧ ∀ c ∈ w, isBlank c = false := by
  unfold value? at h
  split at h
  next hw =>
    have hw : w = ['+', 'I', 'n', 'f'] := by simpa using congrArg String.toList hw
    subst hw
    exact ⟨by decide, clean_of_all (by decide)⟩
  next hw =>
    have hw : w = ['-', 'I', 'n', 'f'] := by simpa using congrArg String.toList hw
    subst hw
    exact ⟨by decide, clean_of_all (by decide)⟩
  next hw =>
    have hw : w = ['N', 'a', 'N'] := by simpa using congrArg String.toList hw
    subst hw
    exact ⟨by decide, clean_of_all (by decide)⟩
  next => exact float?_word h

/-! ## Labels -/

/-- Escaped text goes back to what it was, whatever it is, and the reader still stands in the value. -/
theorem labelsFrom?_escaped (name : String) (t : Table String String) (v : List Char)
    (seen r : List Char) :
    labelsFrom? (.inValue name seen) t (v.flatMap escaped ++ r) =
      labelsFrom? (.inValue name (v.reverse ++ seen)) t r := by
  induction v generalizing seen with
  | nil => rfl
  | cons c v ih =>
    rw [List.flatMap_cons, List.append_assoc, List.reverse_cons, List.append_assoc,
      List.singleton_append, ← ih]
    by_cases hslash : c = '\\'
    · subst hslash
      simp [escaped, labelsFrom?]
    by_cases hquote : c = '"'
    · subst hquote
      simp [escaped, labelsFrom?]
    by_cases hend : c = '\n'
    · subst hend
      simp [escaped, labelsFrom?]
    · simp [escaped, labelsFrom?, hslash, hquote, hend]

theorem labelsFrom?_name (t : Table String String) {cs : List Char} (h : '=' ∉ cs)
    (seen r : List Char) :
    labelsFrom? (.inName seen) t (cs ++ '=' :: r) =
      labelsFrom? (.beforeQuote (nameOf (cs.reverse ++ seen))) t r := by
  induction cs generalizing seen with
  | nil => simp [labelsFrom?]
  | cons c cs ih =>
    have hc : ¬ c = '=' := fun hc => h (by simp [hc])
    have hcs : '=' ∉ cs := fun hcs => h (by simp [hcs])
    rw [List.cons_append, labelsFrom?, if_neg hc, ih hcs, List.reverse_cons, List.append_assoc,
      List.singleton_append]

theorem isLabelChar_range {c : Char} (h : isLabelChar c = true) : 0x30 ≤ c.toNat ∧ c.toNat ≤ 0x7A := by
  have hwithin (lo hi : Char) (h : lo.val ≤ c.val ∧ c.val ≤ hi.val) (hlo : 0x30 ≤ lo.toNat)
      (hhi : hi.toNat ≤ 0x7A) : 0x30 ≤ c.toNat ∧ c.toNat ≤ 0x7A :=
    ⟨Nat.le_trans hlo (UInt32.le_iff_toNat_le.mp h.1), Nat.le_trans (UInt32.le_iff_toNat_le.mp h.2) hhi⟩
  have hdecided {p q : Prop} [Decidable p] [Decidable q] (h : (decide p && decide q) = true) : p ∧ q :=
    (Bool.and_eq_true_iff.mp h).imp of_decide_eq_true of_decide_eq_true
  rcases Bool.or_eq_true_iff.mp h with h | h
  · rcases Bool.or_eq_true_iff.mp h with h | hdigit
    · rcases Bool.or_eq_true_iff.mp h with hupper | hlower
      · exact hwithin 'A' 'Z' (of_decide_eq_true hupper) (by decide) (by decide)
      · exact hwithin 'a' 'z' (hdecided hlower) (by decide) (by decide)
    · exact hwithin '0' '9' (hdecided hdigit) (by decide) (by decide)
  · rw [beq_iff_eq] at h
    subst h
    decide

theorem isLabelChar_start {c : Char} (h : isLabelStart c = true) : isLabelChar c = true := by
  unfold isLabelStart at h
  unfold isLabelChar Char.isAlphanum
  rcases Bool.or_eq_true_iff.mp h with h | h <;> simp [h]

theorem LabelName.isLabelChar (n : LabelName) : ∀ c ∈ n.text, isLabelChar c = true :=
  List.forall_mem_cons.mpr ⟨isLabelChar_start n.start, n.plain⟩

/-- The name of a label says itself. -/
theorem LabelName.nameOf (n : LabelName) : nameOf n.text.reverse = String.ofList n.text := by
  have clean : ∀ c ∈ n.text, isBlank c = false := by
    intro c hc
    have hr := isLabelChar_range (n.isLabelChar c hc)
    exact isBlank_ascii (by omega) (by omega)
  rw [Metrics.nameOf, List.reverse_reverse, trim_clean clean]

theorem LabelName.equals_notMem (n : LabelName) : '=' ∉ n.text := by
  intro h
  exact absurd (n.isLabelChar _ h) (by decide)

theorem labelsFrom?_pair (t : Table String String) (l : LabelName × String) (r : List Char) :
    labelsFrom? .between t (pairText l ++ r) =
      labelsFrom? .between (t.insert (String.ofList l.1.text) l.2) r := by
  obtain ⟨n, v⟩ := l
  -- a name starts with none of the marks that are looked for between two pairs
  have hfirst : isLabelChar n.first = true := isLabelChar_start n.start
  have hsep : ¬ (n.first = ' ' ∨ n.first = ',') := by
    rintro (h | h) <;> rw [h] at hfirst <;> exact absurd hfirst (by decide)
  have hbrace : ¬ n.first = '\x7d' := by
    intro h
    rw [h] at hfirst
    exact absurd hfirst (by decide)
  have hrest : '=' ∉ n.rest := fun h => n.equals_notMem (List.mem_cons_of_mem _ h)
  have hequals : ¬ n.first = '=' := fun h => n.equals_notMem (h ▸ List.mem_cons_self)
  have hname : nameOf (n.rest.reverse ++ [n.first]) = String.ofList n.text := by
    rw [← n.nameOf, LabelName.text, List.reverse_cons]
  calc labelsFrom? .between t (pairText (n, v) ++ r)
      = labelsFrom? (.inName [n.first]) t
          (n.rest ++ '=' :: '"' :: (v.toList.flatMap escaped ++ '"' :: r)) := by
        simp [pairText, LabelName.text, labelsFrom?, hsep, hbrace, hequals]
    _ = labelsFrom? (.inValue (String.ofList n.text) []) t (v.toList.flatMap escaped ++ '"' :: r) := by
        rw [labelsFrom?_name t hrest, hname, labelsFrom?, if_pos rfl]
    _ = labelsFrom? .between (t.insert (String.ofList n.text) v) r := by
        rw [labelsFrom?_escaped, labelsFrom?, if_pos rfl, List.append_nil, List.reverse_reverse,
          String.ofList_toList]

theorem labelsFrom?_pairs (t : Table String String) (ls : List (LabelName × String))
    (r : List Char) :
    labelsFrom? .between t ([','].intercalate (ls.map pairText) ++ '\x7d' :: r) =
      some (ls.foldl (fun t l => t.insert (String.ofList l.1.text) l.2) t, r) := by
  induction ls generalizing t with
  | nil => simp [labelsFrom?]
  | cons l ls ih =>
    cases ls with
    | nil => simp [labelsFrom?_pair, labelsFrom?]
    | cons m ls =>
      rw [List.map_cons, List.map_cons, List.intercalate_cons_cons, List.append_assoc, List.append_assoc,
        labelsFrom?_pair, List.singleton_append, labelsFrom?, if_pos (by simp), ← List.map_cons, ih]
      rfl

example :
    (labelsFrom? .between ∅ "a=\"\x7d,\\\\\\\"\\n\",b=\"\"\x7d 1".toList).map (fun r => (r.1.toList, r.2)) =
      some ([("a", "\x7d,\\\"\n"), ("b", "")], [' ', '1']) := by decide

/-! ## Lines -/

theorem MetricName.clean (n : MetricName) : ∀ c ∈ n.text, isBlank c = false := by
  intro c hc
  have h := n.plain c hc
  unfold endsName at h
  exact (Bool.or_eq_false_iff.mp h).2

/-- Trimming a written sample takes nothing off but blanks behind the time. -/
theorem trim_sample (w : SampleLine) :
    ∃ s, (∀ c ∈ s.head?, isBlank c = true) ∧
      trim w.text = w.name.text ++ (labelsText w.labels ++ ' ' :: (w.value.text ++ s)) := by
  obtain ⟨filled, clean⟩ := value?_word w.value.reads
  obtain ⟨front, last, hvalue⟩ : ∃ front last, w.value.text = front ++ [last] :=
    ⟨_, _, (List.dropLast_concat_getLast filled).symm⟩
  -- the value ends in something visible, so the trimming stops behind it
  have hlast : isBlank last = false := clean last (by simp [hvalue])
  have hfirst : trimStart w.text = w.text :=
    trimStart_visible (w.name.clean _ (by simp [MetricName.text])) _
  have htext : w.text = (w.name.text ++ (labelsText w.labels ++ ' ' :: front)) ++
      last :: stampText w.stamp := by
    simp [SampleLine.text, hvalue]
  refine ⟨trimEnd (stampText w.stamp), ?_, ?_⟩
  · cases w.stamp with
    | none => simp [stampText, trimEnd]
    | some s =>
      intro c hc
      obtain ⟨r, hr⟩ := trimEnd_prefix (stampText (some s))
      obtain ⟨x, hx⟩ := List.head?_eq_some_iff.mp hc
      rw [hx] at hr
      rw [(List.cons.inj hr).1]
      decide
  · rw [trim, hfirst, htext, trimEnd_visible hlast, hvalue]
    simp

/-- A name reaches to the braces or to the first blank. -/
theorem MetricName.cut (n : MetricName) {r : List Char} (hr : ∀ c ∈ r.head?, endsName c = true) :
    (n.text ++ r).takeWhile (!endsName ·) = n.text ∧
      (n.text ++ r).dropWhile (!endsName ·) = r := by
  have hn : ∀ c ∈ n.text, (!endsName c) = true := fun c hc => by simp [n.plain c hc]
  rw [List.takeWhile_append_of_pos hn, List.dropWhile_append_of_pos hn]
  cases r with
  | nil => simp
  | cons c r => simp [hr c rfl]

theorem labelsText_head (ls : Option (List (LabelName × String))) (r : List Char) :
    ∀ c ∈ (labelsText ls ++ ' ' :: r).head?, endsName c = true := by
  cases ls with
  | none => simp [labelsText, endsName, isBlank]
  | some ls => simp [labelsText, endsName]

theorem sample?_text (n : MetricName) (ls : Option (List (LabelName × String))) (v : Value)
    {s : List Char} (hs : ∀ c ∈ s.head?, isBlank c = true) :
    sample? (n.text ++ (labelsText ls ++ ' ' :: (v.text ++ s))) =
      some (String.ofList n.text, ⟨labelsOf (ls.getD []), v.value⟩) := by
  obtain ⟨filled, clean⟩ := value?_word v.reads
  obtain ⟨hname, hrest⟩ := n.cut (labelsText_head ls (v.text ++ s))
  have hvalue : (words (' ' :: (v.text ++ s))).head?.bind value? = some v.value := by
    rw [words_blank (by decide), words_head? filled clean hs, Option.bind_some, v.reads]
  have hfull : n.text.isEmpty = false := rfl
  unfold sample?
  rw [hname, hrest]
  cases ls with
  | none => simp [labelsText, hfull, hvalue, labelsOf, Table.ofList]
  | some ls =>
    have hlabels := labelsFrom?_pairs ∅ ls (' ' :: (v.text ++ s))
    simp [labelsText, hfull, hlabels, hvalue, labelsOf, Table.ofList, List.foldl_map]

theorem lineSample?_sample (w : SampleLine) :
    lineSample? w.text = some (String.ofList w.name.text, w.sample) := by
  obtain ⟨s, hs, htrim⟩ := trim_sample w
  have hsample := sample?_text w.name w.labels w.value hs
  unfold lineSample?
  rw [htrim]
  split
  next h => simp [MetricName.text] at h
  next h => exact absurd (List.cons.inj h).1 w.name.visible
  next => exact hsample

/-- A line says what was written on it. -/
theorem Line.lineSample?_text (w : Line) : lineSample? w.text = w.said? := by
  cases w with
  | sample w => exact lineSample?_sample w
  | comment m t h =>
    have htrim : trim (m.text ++ '#' :: t) = '#' :: trimEnd t := by
      rw [trim, trimStart_append m.blank, trimStart_visible (by decide)]
      exact trimEnd_visible (by decide) [] t
    simp only [lineSample?, Line.text, htrim, Line.said?]
  | blank m =>
    have htrim : trim m.text = [] := by
      have h := trimStart_append m.blank []
      rw [List.append_nil] at h
      rw [trim, h]
      rfl
    simp only [lineSample?, Line.text, htrim, Line.said?]

theorem escaped_unended (c : Char) : '\n' ∉ escaped c := by
  unfold escaped
  split
  · decide
  split
  · decide
  split
  · decide
  next h => simpa using Ne.symm h

theorem pairText_unended (l : LabelName × String) : '\n' ∉ pairText l := by
  intro h
  have hname : '\n' ∉ l.1.text := fun h => absurd (l.1.isLabelChar _ h) (by decide)
  have hvalue : '\n' ∉ l.2.toList.flatMap escaped := by
    intro h
    obtain ⟨c, -, hc⟩ := List.mem_flatMap.mp h
    exact escaped_unended c hc
  simp [pairText, hname, hvalue] at h

theorem labelsText_unended (ls : Option (List (LabelName × String))) : '\n' ∉ labelsText ls := by
  cases ls with
  | none => simp [labelsText]
  | some ls =>
    have hpairs : '\n' ∉ [','].intercalate (ls.map pairText) := by
      induction ls with
      | nil => simp
      | cons l r ih =>
        cases r with
        | nil => simpa using pairText_unended l
        | cons m r =>
          rw [List.map_cons] at ih ⊢
          rw [List.map_cons, List.intercalate_cons_cons]
          simp [pairText_unended l, ih]
    simp [labelsText, hpairs]

/-- What is written is one line. -/
theorem Line.unended (w : Line) : '\n' ∉ w.text := by
  cases w with
  | sample w =>
    have hname : '\n' ∉ w.name.text := by
      intro h
      exact absurd (w.name.clean _ h) (by decide)
    have hvalue : '\n' ∉ w.value.text := by
      intro h
      exact absurd ((value?_word w.value.reads).2 _ h) (by decide)
    have hstamp : '\n' ∉ stampText w.stamp := by
      cases hs : w.stamp with
      | none => simp [stampText]
      | some s => simp [stampText, w.unended s hs]
    simp [Line.text, SampleLine.text, hname, labelsText_unended, hvalue, hstamp]
  | comment m t h => simp [Line.text, m.unended, h]
  | blank m => exact m.unended

/-! ## The export -/

theorem sampleOf?_text (name : String) (w : Line) :
    sampleOf? [] name w.text = (w.said?.filter (·.1 = name)).map (·.2) := by
  have hall : wanted [] name = true := rfl
  rw [sampleOf?, w.lineSample?_text, hall]
  simp only [Bool.and_true]

theorem get?_foldl_takeLine (ws : List Line) (s : Snapshot) (name : String) :
    (ws.foldl (fun s w => takeLine [] s w.text) s).get? name =
      if samplesOf name ws = [] then s.get? name else some (s.samples name ++ samplesOf name ws) := by
  have hsamples : (ws.map Line.text).filterMap (sampleOf? [] name) = samplesOf name ws := by
    rw [List.filterMap_map]
    exact congrArg (ws.filterMap ·) (funext (sampleOf?_text name))
  have hread := get?_foldl_lines [] (ws.map Line.text) s name
  rwa [List.foldl_map, hsamples] at hread

/-- Whatever the labels hold, and whatever comments and blank lines stand in between, what is read of
a metric is what was written of it, in order; of any other nothing is read. -/
theorem read_exposition (ws : List Line) (name : String) :
    (read (exposition ws) []).get? name =
      if samplesOf name ws = [] then none else some (samplesOf name ws) := by
  have hclean : ∀ l ∈ ws.map Line.text, ∀ c ∈ l, (c == '\n') = false := by
    intro l hl
    obtain ⟨w, -, rfl⟩ := List.mem_map.mp hl
    exact beq_sep w.unended
  unfold read exposition
  rw [String.toList_ofList]
  by_cases filled : ws = []
  · subst filled
    rfl
  · rw [lines, splitAt_intercalate rfl (by simpa using filled) hclean, List.foldl_map,
      get?_foldl_takeLine]
    rfl

end Fabric.Metrics

import Fabric.Metrics
import Fabric.Proofs.Pieces
import Fabric.Proofs.Tables

/-! What each line of an export says by itself. A line adds at most the one sample that is on it, whatever
stands around it (`get?_foldl_lines`). So two exports one behind the other say what each of them says, a
line that cannot be read costs nothing but itself, and asking for some metrics is reading them all and
keeping those (`read_linewise`). -/

namespace Fabric

open Fabric.Text

namespace Text

theorem lines_newline (a b : String) : lines (a ++ "\n" ++ b).toList = lines a.toList ++ lines b.toList := by
  rw [String.toList_append, String.toList_append, List.append_assoc]
  exact splitAt_sep (p := (· == '\n')) rfl a.toList b.toList

end Text

namespace Metrics

/-- What a line adds to the samples of a metric: the one that is on it, if it is asked for. -/
def sampleOf? (targets : List String) (name : String) (line : List Char) : Option Sample :=
  ((lineSample? line).filter fun x => x.1 = name && wanted targets name).map (·.2)

theorem get?_push (s : Snapshot) (metric name : String) (x : Sample) :
    (s.push metric x).get? name =
      if name = metric then some (s.samples metric ++ [x]) else s.get? name := by
  rw [Snapshot.push, Table.get?_upsert, Snapshot.samples]

theorem get?_takeLine (targets : List String) (s : Snapshot) (line : List Char) (name : String) :
    (takeLine targets s line).get? name =
      match sampleOf? targets name line with
      | some x => some (s.samples name ++ [x])
      | none => s.get? name := by
  unfold takeLine sampleOf?
  cases lineSample? line with
  | none => rfl
  | some said =>
    obtain ⟨metric, x⟩ := said
    rw [Option.filter_some]
    by_cases hname : metric = name
    · subst hname
      cases hwanted : wanted targets metric <;> simp [hwanted, get?_push]
    · cases hwanted : wanted targets metric <;> simp [hwanted, hname, Ne.symm hname, get?_push]

/-- However many lines are read and whatever was read before them, each adds what is on it. -/
theorem get?_foldl_lines (targets : List String) (ls : List (List Char)) (s : Snapshot) (name : String) :
    (ls.foldl (takeLine targets) s).get? name =
      if ls.filterMap (sampleOf? targets name) = [] then s.get? name
      else some (s.samples name ++ ls.filterMap (sampleOf? targets name)) := by
  induction ls generalizing s with
  | nil => rfl
  | cons line r ih =>
    have hline := get?_takeLine targets s line name
    rw [List.foldl_cons, ih, Snapshot.samples, hline, List.filterMap_cons]
    cases hsample : sampleOf? targets name line with
    | none => rfl
    | some x =>
      by_cases hrest : r.filterMap (sampleOf? targets name) = []
      · simp [hrest]
      · simp [hrest, Snapshot.samples]

theorem get?_read (text : String) (targets : List String) (name : String) :
    (read text targets).get? name =
      if (lines text.toList).filterMap (sampleOf? targets name) = [] then none
      else some ((lines text.toList).filterMap (sampleOf? targets name)) :=
  get?_foldl_lines targets (lines text.toList) ∅ name

theorem samples_read (text : String) (targets : List String) (name : String) :
    (read text targets).samples name = (lines text.toList).filterMap (sampleOf? targets name) := by
  rw [Snapshot.samples, get?_read]
  split
  next hnone => rw [hnone, Option.getD_none]
  next => rfl

/-- No metric is listed without a sample. -/
theorem contains_read (text : String) (targets : List String) (name : String) :
    (read text targets).contains name = true ↔ (read text targets).samples name ≠ [] := by
  rw [samples_read, Table.contains, get?_read]
  split
  next hnone => simp [hnone]
  next hsome => simp [hsome]

theorem read_congr {a b : String} {targets targets' : List String}
    (h : ∀ name, (lines a.toList).filterMap (sampleOf? targets name) =
      (lines b.toList).filterMap (sampleOf? targets' name)) : read a targets = read b targets' := by
  refine Table.ext_get? fun name => ?_
  rw [get?_read, get?_read, h]

theorem sampleOf?_return (targets : List String) (name : String) (line : List Char) :
    sampleOf? targets name (line ++ ['\r']) = sampleOf? targets name line := by
  have htrim : trim (line ++ ['\r']) = trim line := trim_append_blank (by decide) line
  rw [sampleOf?, lineSample?, htrim]
  rfl

/-- A carriage return at the end of a text belongs to its last line and says nothing there. -/
theorem filterMap_lines_return (targets : List String) (name : String) (cs : List Char) :
    (lines (cs ++ ['\r'])).filterMap (sampleOf? targets name) =
      (lines cs).filterMap (sampleOf? targets name) := by
  obtain ⟨front, last, hlines⟩ : ∃ front last, lines cs = front ++ [last] :=
    ⟨_, _, (List.dropLast_concat_getLast (splitAt_ne_nil cs)).symm⟩
  have hclean : ∀ c ∈ last ++ ['\r'], (c == '\n') = false := by
    refine List.forall_mem_append.mpr ⟨splitAt_pieces cs last ?_, by simp⟩
    show last ∈ lines cs
    simp [hlines]
  have hreturn : lines (cs ++ ['\r']) = front ++ [last ++ ['\r']] := by
    rw [lines, splitAt_append, ← lines, hlines, List.dropLast_concat, List.getLast?_concat, Option.getD_some,
      splitAt_clean hclean]
  rw [hreturn, hlines, List.filterMap_append, List.filterMap_append, List.filterMap_cons,
    List.filterMap_cons, sampleOf?_return]

theorem sampleOf?_targets (target : String) (more : List String) (name : String) (line : List Char) :
    sampleOf? (target :: more) name line =
      if (target :: more).contains name then sampleOf? [] name line else none := by
  have hwanted : wanted (target :: more) name = (target :: more).contains name := rfl
  have hall : wanted [] name = true := rfl
  rw [sampleOf?, sampleOf?, hwanted, hall]
  cases (target :: more).contains name <;> simp

theorem read_targets (text target : String) (more : List String) :
    read text (target :: more) = (read text []).filter fun name _ => (target :: more).contains name := by
  refine Table.ext_get? fun name => ?_
  rw [Table.get?_filter, get?_read, get?_read]
  cases hwanted : (target :: more).contains name with
  | true =>
    have hsame : sampleOf? (target :: more) name = sampleOf? [] name :=
      funext fun line => by rw [sampleOf?_targets, hwanted, if_pos rfl]
    rw [hsame]
    split <;> rfl
  | false =>
    have hnothing : sampleOf? (target :: more) name = fun _ => none :=
      funext fun line => by rw [sampleOf?_targets, hwanted, if_neg Bool.false_ne_true]
    have hnone : (lines text.toList).filterMap (sampleOf? (target :: more) name) = [] := by
      rw [hnothing, List.filterMap_eq_nil_iff]
      exact fun _ _ => rfl
    rw [if_pos hnone]
    split <;> rfl

/-- Whatever two texts hold and whichever metrics are asked for: of each metric the two texts one below the
other say what the first says and then what the second says. A text says of it what each of its lines says
by itself, which is one sample at the most; so a line, whatever is on it, stands for its own sample or none
and leaves those around it alone. No metric is listed without a sample, and whether lines end with a
carriage return makes no difference. To ask for some metrics is to read them all and to keep those. -/
theorem read_linewise :
    (∀ (a b : String) (targets : List String) (name : String),
      (read (a ++ "\n" ++ b) targets).samples name =
        (read a targets).samples name ++ (read b targets).samples name) ∧
    (∀ (text : String) (targets : List String) (name : String),
      (read text targets).samples name = (lines text.toList).filterMap (sampleOf? targets name) ∧
      ((read text targets).contains name = true ↔ (read text targets).samples name ≠ [])) ∧
    (∀ (above line below : String) (targets : List String) (name : String), '\n' ∉ line.toList →
      (read (above ++ "\n" ++ line ++ "\n" ++ below) targets).samples name =
        (read above targets).samples name ++ (sampleOf? targets name line.toList).toList ++
          (read below targets).samples name) ∧
    (∀ (a b : String) (targets : List String),
      read (a ++ "\r\n" ++ b) targets = read (a ++ "\n" ++ b) targets) ∧
    ∀ (text target : String) (more : List String),
      read text (target :: more) = (read text []).filter fun name _ => (target :: more).contains name := by
  have hjoined (a b : String) (targets : List String) (name : String) :
      (read (a ++ "\n" ++ b) targets).samples name =
        (read a targets).samples name ++ (read b targets).samples name := by
    rw [samples_read, samples_read, samples_read, lines_newline, List.filterMap_append]
  refine ⟨hjoined, fun text targets name => ⟨samples_read text targets name, contains_read text targets name⟩,
    fun above line below targets name hline => ?_, fun a b targets => read_congr fun name => ?_, read_targets⟩
  · have hone : lines line.toList = [line.toList] := splitAt_clean (beq_sep hline)
    have hown : [line.toList].filterMap (sampleOf? targets name) =
        (sampleOf? targets name line.toList).toList := by
      rw [List.filterMap_cons, List.filterMap_nil]
      cases sampleOf? targets name line.toList <;> rfl
    rw [hjoined, hjoined, samples_read line, hone, hown]
  · have hend : "\r\n" = "\r" ++ "\n" := rfl
    rw [hend, ← String.append_assoc, lines_newline, lines_newline, List.filterMap_append, List.filterMap_append,
      String.toList_append]
    exact congrArg (· ++ _) (filterMap_lines_return targets name a.toList)

/-- A line with an open quote and a backslash at its end, between two that are well. -/
theorem read_linewise_torn :
    let torn := "port_status\x7bdp_name=\"é\\"
    '\n' ∉ torn.toList ∧ (sampleOf? [] "port_status" torn.toList).isNone = true ∧
      (read ("port_status 1" ++ "\n" ++ torn ++ "\n" ++ "port_status 2") []).samples "port_status" =
        (read "port_status 1" []).samples "port_status" ++ (sampleOf? [] "port_status" torn.toList).toList ++
          (read "port_status 2" []).samples "port_status" := by
  intro torn
  have hline : '\n' ∉ torn.toList := by decide
  exact ⟨hline, by decide +kernel,
    read_linewise.2.2.1 "port_status 1" torn "port_status 2" [] "port_status" hline⟩

end Metrics
end Fabric

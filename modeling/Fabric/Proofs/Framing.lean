import Fabric.Feed.Delivery
import Fabric.Proofs.Pieces

/-! Bytes come in pieces of any size. However a stream of lines is cut up on the way, a feed puts
the same lines together, and keeps of the line that is not over yet what has come of it. -/

namespace Fabric.Feed

open Fabric.Text

/-- Lines as they go over the wire. -/
def framed (ls : List (List UInt8)) : List UInt8 := ls.flatMap (· ++ [0x0A])

theorem framed_cons (l : List UInt8) (r : List (List UInt8)) :
    framed (l :: r) = l ++ 0x0A :: framed r := by
  simp [framed]

/-- A first part of a stream is cut into the lines that are whole and the start of the next. -/
theorem splitAt_framed {ls : List (List UInt8)} (cut : ∀ l ∈ ls, 0x0A ∉ l) {x y : List UInt8}
    (h : x ++ y = framed ls) :
    ∃ done left start, ls = done ++ left ∧ splitAt (· == 0x0A) x = done ++ [start] ∧
      start ++ y = framed left ∧ 0x0A ∉ start := by
  induction ls generalizing x with
  | nil =>
    obtain ⟨rfl, rfl⟩ := List.append_eq_nil_iff.mp h
    exact ⟨[], [], [], rfl, rfl, rfl, by simp⟩
  | cons l r ih =>
    have hl : 0x0A ∉ l := cut l (by simp)
    rw [framed_cons] at h
    rcases List.append_eq_append_iff.mp h with ⟨a, rfl, hy⟩ | ⟨c, rfl, hc⟩
    · have hx : 0x0A ∉ x := fun hx => hl (by simp [hx])
      refine ⟨[], (x ++ a) :: r, x, rfl, splitAt_clean (beq_sep hx), ?_, hx⟩
      rw [framed_cons, hy, List.append_assoc]
    · cases c with
      | nil =>
        refine ⟨[], l :: r, l, rfl, by simpa using splitAt_clean (beq_sep hl), ?_, hl⟩
        rw [framed_cons, hc, List.nil_append]
      | cons b z =>
        obtain ⟨rfl, hz⟩ := List.cons.inj hc
        obtain ⟨done, left, start, rfl, hsplit, hleft, hstart⟩ := ih (fun l hl => cut l (by simp [hl])) hz.symm
        refine ⟨l :: done, left, start, rfl, ?_, hleft, hstart⟩
        rw [splitAt_piece (beq_sep hl) rfl, hsplit, List.cons_append]

/-- What has arrived of a stream goes to the lines up to the last line end. -/
theorem receive_framed {f : Feed} {bytes later : List UInt8} {ls : List (List UInt8)}
    (cut : ∀ l ∈ ls, 0x0A ∉ l) (h : f.rest ++ (bytes ++ later) = framed ls) :
    ∃ done left start, ls = done ++ left ∧
      f.receive bytes = { f with lines := f.lines ++ done, rest := start } ∧
      start ++ later = framed left ∧ 0x0A ∉ start := by
  rw [← List.append_assoc] at h
  obtain ⟨done, left, start, hls, hsplit, hleft, hstart⟩ := splitAt_framed cut h
  refine ⟨done, left, start, hls, ?_, hleft, hstart⟩
  simp [receive, hsplit]

/-- A line that is over is not kept back. -/
theorem framed_eq_clean {ls : List (List UInt8)} {start : List UInt8} (h : start = framed ls)
    (hstart : 0x0A ∉ start) : ls = [] := by
  cases ls with
  | nil => rfl
  | cons l r =>
    rw [framed_cons] at h
    exact absurd (by simp [h]) hstart

end Fabric.Feed

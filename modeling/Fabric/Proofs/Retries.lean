import Fabric.Scrape

/-! Fetching with a budget. A reply either settles the fetch, or is empty, or fails in a way that may
pass; which of these it is depends on the reply alone (`Reply.settles`, `Reply.mayPass`). The fetch goes
through the replies in order up to the first that settles it, and all that it does on the way is told by
these replies, one at a time (`attempts_eq`): a request for each, and a pause behind each failure that may
pass. -/

namespace Fabric

namespace Reply

/-- The fetch is over with this reply: there are samples in it, or it failed for good. -/
def settles (targets : List String) : Reply → Bool
  | response status body =>
    if 200 ≤ status ∧ status < 300 then !(Metrics.read body targets).isEmpty else status < 500
  | failed soft => !soft

/-- The failure may pass. -/
def mayPass : Reply → Bool
  | response status _ => 500 ≤ status
  | failed soft => soft

/-- What is done about a reply that does not settle the fetch, its request included. -/
def acts (r : Reply) : List Scrape.Act := .request :: if r.mayPass then [.pause] else []

end Reply

namespace Scrape

/-- So many replies, from the one to request `next` on. -/
def replies (tape : Nat → Reply) (next count : Nat) : List Reply :=
  (List.range count).map fun i => tape (next + i)

variable {tape : Nat → Reply} {targets : List String} {budget : UInt32}

theorem replies_succ (next count : Nat) :
    replies tape next (count + 1) = tape next :: replies tape (next + 1) count := by
  rw [replies, replies, List.range_succ_eq_map, List.map_cons, List.map_map, Nat.add_zero]
  congr 1
  refine List.map_congr_left fun i _ => ?_
  rw [Function.comp_apply, Nat.add_succ, Nat.succ_add]

@[simp] theorem length_replies (next count : Nat) : (replies tape next count).length = count := by
  simp [replies]

/-! ## What is done -/

theorem count_request (rs : List Reply) : (rs.flatMap Reply.acts).count .request = rs.length := by
  induction rs with
  | nil => rfl
  | cons r rs ih =>
    have hr : r.acts.count .request = 1 := by
      unfold Reply.acts
      cases r.mayPass <;> rfl
    rw [List.flatMap_cons, List.count_append, ih, hr, List.length_cons, Nat.add_comm]

theorem count_pause (rs : List Reply) : (rs.flatMap Reply.acts).count .pause = rs.countP Reply.mayPass := by
  induction rs with
  | nil => rfl
  | cons r rs ih =>
    have hr : r.acts.count .pause = if r.mayPass then 1 else 0 := by
      unfold Reply.acts
      cases r.mayPass <;> rfl
    rw [List.flatMap_cons, List.count_append, ih, hr, List.countP_cons, Nat.add_comm]

/-! ## What becomes of it -/

/-- One attempt. -/
theorem attempts_succ (left next : Nat) :
    attempts tape targets budget (left + 1) next =
      if (tape next).settles targets then ⟨outcome targets (tape next), [.request]⟩
      else (attempts tape targets budget left (next + 1)).after (tape next).acts := by
  rw [attempts]
  generalize tape next = r
  cases r with
  | failed soft => cases soft <;> rfl
  | response status body =>
    by_cases hok : 200 ≤ status ∧ status < 300
    · have hlow : ¬ 500 ≤ status := by omega
      cases hempty : (Metrics.read body targets).isEmpty <;>
        simp [outcome, Reply.settles, Reply.acts, Reply.mayPass, hok, hempty, hlow]
    · by_cases hhigh : 500 ≤ status
      · have hnot : ¬ status < 500 := by omega
        simp [outcome, Reply.settles, Reply.acts, Reply.mayPass, Fault.isTransient, hok, hhigh, hnot]
      · have hlow : status < 500 := by omega
        simp [outcome, Reply.settles, Fault.isTransient, hok, hhigh, hlow]

/-- The first reply that settles the fetch is its result, and if there is none the budget is spent. -/
theorem attempts_eq (left next : Nat) :
    attempts tape targets budget left next =
      match (replies tape next left).findIdx? (Reply.settles targets) with
      | some i => ⟨outcome targets (tape (next + i)), (replies tape next i).flatMap Reply.acts ++ [.request]⟩
      | none => ⟨.error (.noMetrics budget), (replies tape next left).flatMap Reply.acts⟩ := by
  induction left generalizing next with
  | zero => rfl
  | succ left ih =>
    rw [attempts_succ, replies_succ, List.findIdx?_cons]
    by_cases hsettles : (tape next).settles targets = true
    · rw [if_pos hsettles, if_pos hsettles]
      rfl
    · rw [if_neg hsettles, if_neg hsettles, ih (next + 1)]
      cases (replies tape (next + 1) left).findIdx? (Reply.settles targets) with
      | none => rw [Fetch.after, List.flatMap_cons, Option.map_none]
      | some i =>
        have hlater : next + 1 + i = next + (i + 1) := by omega
        rw [Fetch.after, Option.map_some]
        dsimp only
        rw [hlater, replies_succ, List.flatMap_cons, List.append_assoc]

/-- With replies that come in whatever order, a fetch asks until the first reply that has samples of the
metrics in question or fails for good, and has that as its result; if no reply within the budget is one,
the budget is what it reports. It makes one request for each reply on the way. Behind each failure that
may pass it pauses, once, and behind an empty answer it does not. -/
theorem retry_exact (tape : Nat → Reply) (start : Nat) (targets : List String) (budget : UInt32) :
    let f := retry tape start targets budget
    match (replies tape start budget.toNat).findIdx? (Reply.settles targets) with
    | some i =>
      f.result = outcome targets (tape (start + i)) ∧
        f.acts = (replies tape start i).flatMap Reply.acts ++ [.request] ∧
        f.requests = i + 1 ∧ f.pauses = (replies tape start i).countP Reply.mayPass
    | none =>
      f.result = .error (.noMetrics budget) ∧
        f.acts = (replies tape start budget.toNat).flatMap Reply.acts ∧
        f.requests = budget.toNat ∧ f.pauses = (replies tape start budget.toNat).countP Reply.mayPass := by
  intro f
  have hf : f = attempts tape targets budget budget.toNat start := rfl
  rw [attempts_eq] at hf
  cases hfirst : (replies tape start budget.toNat).findIdx? (Reply.settles targets) with
  | some i =>
    rw [hfirst] at hf
    dsimp only at hf ⊢
    refine ⟨by rw [hf], by rw [hf], ?_, ?_⟩
    · rw [Fetch.requests, hf, List.count_append, count_request, length_replies]
      rfl
    · rw [Fetch.pauses, hf, List.count_append, count_pause]
      rfl
  | none =>
    rw [hfirst] at hf
    dsimp only at hf ⊢
    refine ⟨by rw [hf], by rw [hf], ?_, ?_⟩
    · rw [Fetch.requests, hf, count_request, length_replies]
    · rw [Fetch.pauses, hf, count_pause]

/-- An empty answer, a failure that may pass, and samples that were asked for: one pause in three requests. -/
example :
    let tape : Nat → Reply := fun i =>
      ([.response 200 "other 1\n", .response 503 "", .response 200 "up 1\n"] : List Reply)[i]?.getD
        (.failed false)
    (retry tape 0 ["up"] 3).acts = [.request, .request, .pause, .request] ∧
      (retry tape 0 ["up"] 2).requests = 2 := by
  decide +kernel

end Scrape
end Fabric

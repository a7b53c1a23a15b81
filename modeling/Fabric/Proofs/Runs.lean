import Fabric.Engine

/-! Outcomes and runs compose: what follows an outcome starts from its network and adds to its
notices, and a run over two lists of operations is the run over the first and then the second.
A property that every operation keeps therefore holds after every run (`run_keeps`), and a
change of the network that no update notices can be made before or after them all
(`forEach_comm`). -/

namespace Fabric

namespace Outcome

def map (g : Network → Network) (o : Outcome) : Outcome := ⟨g o.network, o.notices⟩

@[simp] theorem map_quiet (g : Network → Network) (n : Network) : (quiet n).map g = quiet (g n) := rfl

@[simp] theorem map_network (g : Network → Network) (o : Outcome) : (o.map g).network = g o.network := rfl

@[simp] theorem map_notices (g : Network → Network) (o : Outcome) : (o.map g).notices = o.notices := rfl

@[simp] theorem quiet_network (n : Network) : (quiet n).network = n := rfl

@[simp] theorem quiet_notices (n : Network) : (quiet n).notices = [] := rfl

@[simp] theorem andThen_network (o : Outcome) (f : Network → Outcome) :
    (o.andThen f).network = (f o.network).network := rfl

@[simp] theorem quiet_andThen (n : Network) (f : Network → Outcome) : (quiet n).andThen f = f n := by
  simp [andThen]

@[simp] theorem andThen_quiet (o : Outcome) : o.andThen quiet = o := by
  simp [andThen, quiet]

theorem andThen_assoc (o : Outcome) (f g : Network → Outcome) :
    (o.andThen f).andThen g = o.andThen fun n => (f n).andThen g := by
  simp [andThen]

theorem map_andThen_comm {o : Outcome} {f f' : Network → Outcome} {g : Network → Network}
    (h : f (g o.network) = (f' o.network).map g) :
    (o.map g).andThen f = (o.andThen f').map g := by
  simp [andThen, map, h]

section ForEach
variable {α : Type}

theorem foldl_andThen (l : List α) (f : α → Network → Outcome) (o : Outcome) :
    l.foldl (fun o a => o.andThen (f a)) o = o.andThen (forEach l f) := by
  induction l generalizing o with
  | nil => exact (andThen_quiet o).symm
  | cons a r ih =>
    rw [List.foldl_cons, ih, andThen_assoc]
    congr 1
    funext n
    rw [forEach, List.foldl_cons, quiet_andThen, ih]

theorem forEach_cons (a : α) (r : List α) (f : α → Network → Outcome) (n : Network) :
    forEach (a :: r) f n = (f a n).andThen (forEach r f) := by
  rw [forEach, List.foldl_cons, quiet_andThen, foldl_andThen]

theorem forEach_append (l r : List α) (f : α → Network → Outcome) (n : Network) :
    forEach (l ++ r) f n = (forEach l f n).andThen (forEach r f) := by
  rw [forEach, List.foldl_append, foldl_andThen]
  rfl

@[simp] theorem forEach_singleton (a : α) (f : α → Network → Outcome) (n : Network) :
    forEach [a] f n = f a n := by
  rw [forEach_cons]
  exact andThen_quiet _

theorem forEach_map {β : Type} (l : List β) (k : β → α) (f : α → Network → Outcome) (n : Network) :
    forEach (l.map k) f n = forEach l (fun b => f (k b)) n := by
  rw [forEach, forEach, List.foldl_map]

theorem forEach_quiet (l : List α) (f : α → Network → Network) (n : Network) :
    forEach l (fun a n => quiet (f a n)) n = quiet (l.foldl (fun n a => f a n) n) := by
  induction l generalizing n with
  | nil => rfl
  | cons a r ih => rw [forEach_cons, quiet_andThen, ih, List.foldl_cons]

theorem forEach_comm {l : List α} {f : α → Network → Outcome} {g : Network → Network}
    (h : ∀ a ∈ l, ∀ n, f a (g n) = (f a n).map g) (n : Network) :
    forEach l f (g n) = (forEach l f n).map g := by
  induction l generalizing n with
  | nil => rfl
  | cons a r ih =>
    rw [forEach_cons, forEach_cons, h a (by simp)]
    exact map_andThen_comm (ih (fun b hb => h b (by simp [hb])) _)

/-- What each update keeps all of them keep. -/
theorem forEach_keeps {P : Network → Prop} {l : List α} {f : α → Network → Outcome}
    (h : ∀ a ∈ l, ∀ n, P n → P (f a n).network) {n : Network} (hn : P n) :
    P (forEach l f n).network := by
  induction l generalizing n with
  | nil => exact hn
  | cons a r ih =>
    rw [forEach_cons, andThen_network]
    exact ih (fun b hb => h b (by simp [hb])) (h a (by simp) n hn)

end ForEach
end Outcome

namespace Engine

theorem foldl_run (ops : List Operation) (g : Engine) (told : List Notice) :
    ops.foldl (fun (g, told) op =>
      let (g, notices) := g.perform op
      (g, told ++ notices)) (g, told) = ((g.run ops).1, told ++ (g.run ops).2) := by
  unfold run
  induction ops generalizing g told with
  | nil => simp
  | cons op r ih =>
    simp only [List.foldl_cons, List.nil_append]
    rw [ih _ (told ++ _), ih _ (g.perform op).2]
    simp

@[simp] theorem run_nil (g : Engine) : g.run [] = (g, []) := rfl

theorem run_cons (g : Engine) (op : Operation) (r : List Operation) :
    g.run (op :: r) =
      (((g.perform op).1.run r).1, (g.perform op).2 ++ ((g.perform op).1.run r).2) := by
  rw [run, List.foldl_cons]
  exact foldl_run r (g.perform op).1 _

theorem run_append (g : Engine) (a b : List Operation) :
    g.run (a ++ b) = (((g.run a).1.run b).1, (g.run a).2 ++ ((g.run a).1.run b).2) := by
  induction a generalizing g with
  | nil => simp
  | cons op r ih => rw [List.cons_append, run_cons, ih, run_cons]; simp

/-- A property that every operation keeps holds after every run. -/
theorem run_keeps {P : Engine → Prop} {ops : List Operation}
    (step : ∀ op ∈ ops, ∀ g, P g → P (g.perform op).1) {g : Engine} (hg : P g) : P (g.run ops).1 := by
  induction ops generalizing g with
  | nil => exact hg
  | cons op r ih =>
    rw [run_cons]
    exact ih (fun op hop => step op (by simp [hop])) (step op (by simp) g hg)

theorem updateAll_append (g : Engine) (now : Instant) (us vs : List Update) :
    g.updateAll now (us ++ vs) =
      (((g.updateAll now us).1.updateAll now vs).1,
        (g.updateAll now us).2 ++ ((g.updateAll now us).1.updateAll now vs).2) := by
  simp only [updateAll, Outcome.forEach_append]
  rfl

theorem update_eq (g : Engine) (now : Instant) (u : Update) :
    g.update now u = ({ g with network := (u.apply g.config g.wiring now g.network).network },
      (u.apply g.config g.wiring now g.network).notices) := by
  rw [update, updateAll, Outcome.forEach_singleton]

/-- Updates that come one by one do what they do together. -/
theorem run_updates (g : Engine) (now : Instant) (us : List Update) :
    g.run (us.map (.update now)) = g.updateAll now us := by
  induction us generalizing g with
  | nil => rfl
  | cons u r ih =>
    rw [List.map_cons, run_cons, ih]
    exact (updateAll_append g now [u] r).symm

/-- An authorization of a host that nobody knows leaves everything as it was. -/
theorem perform_authorize (g : Engine) (mac : Mac) (a : Authorization) :
    g.perform (.authorize mac a) =
      ({ g with network := (g.network.authorize mac a).toOption.getD g.network }, []) := by
  simp only [perform, authorize]
  cases g.network.authorize mac a <;> rfl

theorem perform_config (g : Engine) (op : Operation) : (g.perform op).1.config = g.config := by
  cases op with
  | authorize mac a => rw [perform_authorize]
  | _ => rfl

/-- What an engine is set to do never changes. -/
theorem run_config (g : Engine) (ops : List Operation) : (g.run ops).1.config = g.config :=
  run_keeps (P := fun h => h.config = g.config) (fun op _ h hh => (perform_config h op).trans hh) rfl

end Engine
end Fabric

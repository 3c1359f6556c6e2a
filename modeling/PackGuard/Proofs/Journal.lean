import PackGuard.Controller.Basic

/-!
What a task asks of the front-end. A journal grows by the requests a task makes, and the front-end
goes through exactly these. A `Passage` leads from one controller to another: it keeps a view of the
moment, and every request on the way satisfies a condition. Passages compose, so the passage of a
task is put together from those of its parts.
-/

namespace PackGuard

variable {σ ε : Type} {n : Nat} [FrontEnd σ ε n]

/-- The front-end gets from one state to another by serving the requests of a journal, which lists
the latest first. -/
inductive Served : σ → List (Entry n) → σ → Prop
  | refl (s : σ) : Served s [] s
  | answered {s t u : σ} {entries : List (Entry n)} {request : Request}
      {answer : request.Answer n} (moment : Moment n) (before : Served s entries t)
      (now : FrontEnd.perform request t = .ok answer u) :
      Served s (⟨request, some answer, moment⟩ :: entries) u
  | failed {s t u : σ} {entries : List (Entry n)} {request : Request} {e : ε} (moment : Moment n)
      (before : Served s entries t) (now : FrontEnd.perform request t = .error e u) :
      Served s (⟨request, none, moment⟩ :: entries) u

theorem Served.append {s t u : σ} {first second : List (Entry n)} (h : Served s first t)
    (k : Served t second u) : Served s (second ++ first) u := by
  induction k with
  | refl => exact h
  | answered moment _ now ih => exact .answered moment ih now
  | failed moment _ now ih => exact .failed moment ih now

namespace Controller

def since (earlier later : Controller σ n) : List (Entry n) :=
  later.journal.take (later.journal.length - earlier.journal.length)

/-- A later controller has made the given requests, and the front-end has served them. No task
changes the time from which switches may be operated. -/
structure Logged (c : Controller σ n) (entries : List (Entry n)) (d : Controller σ n) : Prop where
  journal : d.journal = entries ++ c.journal
  served : Served c.frontEnd entries d.frontEnd
  readyAt : d.readyAt = c.readyAt

theorem Logged.refl (c : Controller σ n) : Logged c [] c := ⟨rfl, .refl _, rfl⟩

theorem Logged.trans {c d e : Controller σ n} {first second : List (Entry n)}
    (h : Logged c first d) (k : Logged d second e) : Logged c (second ++ first) e where
  journal := by rw [k.journal, h.journal, List.append_assoc]
  served := h.served.append k.served
  readyAt := k.readyAt.trans h.readyAt

theorem Logged.since_eq {c d : Controller σ n} {entries : List (Entry n)}
    (h : Logged c entries d) : since c d = entries := by
  simp [since, h.journal]

theorem logged_record_answered {request : Request} {answer : request.Answer n} {s : σ}
    {c : Controller σ n} (h : FrontEnd.perform request c.frontEnd = .ok answer s) :
    Logged c [⟨request, some answer, c.moment⟩] (c.record request (some answer) s) :=
  ⟨rfl, .answered _ (.refl _) h, rfl⟩

theorem logged_record_failed {request : Request} {e : ε} {s : σ} {c : Controller σ n}
    (h : FrontEnd.perform request c.frontEnd = .error e s) :
    Logged c [⟨request, none, c.moment⟩] (c.record request none s) :=
  ⟨rfl, .failed _ (.refl _) h, rfl⟩

/-- A way from one controller to another. The view is also the same at every request on the way. -/
def Passage {κ : Type} (view : Moment n → κ) (condition : Entry n → Prop)
    (c d : Controller σ n) : Prop :=
  ∃ entries, Logged c entries d ∧ view d.moment = view c.moment ∧
    ∀ e ∈ entries, view e.moment = view c.moment ∧ condition e

def Passes {κ δ α : Type} (view : Moment n → κ) (condition : Entry n → Prop)
    (task : EStateM δ (Controller σ n) α) : Prop :=
  ∀ c : Controller σ n, Passage view condition c (c.attempt task).2

section Passage

variable {κ μ : Type} {view : Moment n → κ} {condition : Entry n → Prop} {c d e : Controller σ n}

theorem Passage.refl (c : Controller σ n) : Passage view condition c c :=
  ⟨[], .refl c, rfl, by simp⟩

theorem Passage.trans (h : Passage view condition c d) (k : Passage view condition d e) :
    Passage view condition c e := by
  obtain ⟨first, loggedFirst, keptFirst, heldFirst⟩ := h
  obtain ⟨second, loggedSecond, keptSecond, heldSecond⟩ := k
  refine ⟨second ++ first, loggedFirst.trans loggedSecond, keptSecond.trans keptFirst, ?_⟩
  intro entry member
  rcases List.mem_append.mp member with later | earlier
  · exact ⟨(heldSecond entry later).1.trans keptFirst, (heldSecond entry later).2⟩
  · exact heldFirst entry earlier

theorem Passage.weaken {coarse : Moment n → μ} {weak : Entry n → Prop}
    (h : Passage view condition c d) (part : κ → μ) (views : ∀ m, part (view m) = coarse m)
    (conditions : ∀ entry, view entry.moment = view c.moment → condition entry → weak entry) :
    Passage coarse weak c d := by
  obtain ⟨entries, logged, kept, held⟩ := h
  refine ⟨entries, logged, ?_, ?_⟩
  · rw [← views, ← views, kept]
  · intro entry member
    obtain ⟨same, holds⟩ := held entry member
    refine ⟨?_, conditions entry same holds⟩
    rw [← views, ← views, same]

theorem Passage.of_memory (journal : d.journal = c.journal) (frontEnd : d.frontEnd = c.frontEnd)
    (readyAt : d.readyAt = c.readyAt) (kept : view d.moment = view c.moment) :
    Passage view condition c d :=
  ⟨[], ⟨journal, frontEnd ▸ .refl _, readyAt⟩, kept, by simp⟩

theorem Passage.foldl {ι : Type} {step : Controller σ n → ι → Controller σ n}
    (h : ∀ c i, Passage view condition c (step c i)) (items : List ι) (c : Controller σ n) :
    Passage view condition c (items.foldl step c) := by
  induction items generalizing c with
  | nil => exact .refl c
  | cons item rest ih => exact (h c item).trans (ih (step c item))

theorem passage_command {request : Request} (c : Controller σ n)
    (h : ∀ answer?, condition ⟨request, answer?, c.moment⟩) :
    Passage view condition c (c.attempt (command request)).2 := by
  simp only [attempt, command]
  cases made : FrontEnd.perform request c.frontEnd with
  | ok answer s => exact ⟨_, logged_record_answered made, rfl, by simpa using h _⟩
  | error e s => exact ⟨_, logged_record_failed made, rfl, by simpa using h _⟩

end Passage

section Passes

variable {κ δ α β ι : Type} {view : Moment n → κ} {condition : Entry n → Prop}

theorem passes_pure (a : α) :
    Passes view condition (pure a : EStateM δ (Controller σ n) α) :=
  fun c => .refl c

theorem passes_throw (e : δ) :
    Passes view condition (throw e : EStateM δ (Controller σ n) α) :=
  fun c => .refl c

theorem passes_bind {task : EStateM δ (Controller σ n) α}
    {rest : α → EStateM δ (Controller σ n) β} (h : Passes view condition task)
    (k : ∀ a, Passes view condition (rest a)) : Passes view condition (task >>= rest) := by
  intro c
  have first := h c
  cases done : task c with
  | ok a d =>
    have second := k a d
    simp only [attempt, done] at first
    simp only [attempt, bind, EStateM.bind, done] at second ⊢
    exact first.trans second
  | error e d =>
    simp only [attempt, done] at first
    simpa only [attempt, bind, EStateM.bind, done] using first

theorem passes_modify {change : Controller σ n → Controller σ n}
    (h : ∀ c, Passage view condition c (change c)) :
    Passes view condition (modify change : EStateM δ (Controller σ n) PUnit) :=
  h

theorem passes_get : Passes view condition (get : EStateM δ (Controller σ n) (Controller σ n)) :=
  fun c => .refl c

theorem passes_command {request : Request} (h : ∀ answer? moment,
    condition ⟨request, answer?, moment⟩) :
    Passes view condition (command request : EStateM ε (Controller σ n) (request.Answer n)) :=
  fun c => passage_command c fun answer? => h answer? c.moment

theorem passes_ask {request : Request} (h : ∀ answer? moment,
    condition ⟨request, answer?, moment⟩) :
    Passes view condition
      (ask request : EStateM (ControlError ε) (Controller σ n) (request.Answer n)) := by
  intro c
  have inner : Passage view condition c (c.attempt (command request)).2 :=
    passage_command c fun answer? => h answer? c.moment
  simp only [ask, attempt, EStateM.adaptExcept] at inner ⊢
  cases done : (command request : EStateM ε (Controller σ n) _) c <;> simpa [done] using inner

theorem passes_tryCatch {task : EStateM δ (Controller σ n) α}
    {recover : δ → EStateM δ (Controller σ n) α} (h : Passes view condition task)
    (k : ∀ e, Passes view condition (recover e)) :
    Passes view condition (tryCatch task recover) := by
  intro c
  have first := h c
  change Passage view condition c (c.attempt (EStateM.tryCatch task recover)).2
  delta EStateM.tryCatch
  simp only [attempt] at first ⊢
  cases done : task c with
  | ok a d =>
    rw [done] at first
    exact first
  | error e d =>
    have second := k e d
    rw [done] at first
    exact first.trans second

theorem passes_forM {task : ι → EStateM δ (Controller σ n) PUnit} (items : List ι)
    (h : ∀ i ∈ items, Passes view condition (task i)) :
    Passes view condition (items.forM task) := by
  induction items with
  | nil => exact passes_pure _
  | cons item rest ih =>
    change Passes view condition (task item >>= fun _ => rest.forM task)
    exact passes_bind (h item (by simp)) fun _ => ih fun i member => h i (by simp [member])

end Passes

end Controller
end PackGuard

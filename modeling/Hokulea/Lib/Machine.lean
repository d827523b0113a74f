/-
Machines that answer calls, as a library.

A call on a machine in state `s` panics (`none`) or returns an answer
and the next state. Three ways to make many calls:

- `drive`: repeat a call until an answer stops it or the budget is
  spent;
- `drivePhases`: one drive after another, each phase begun when the
  one before it stopped;
- `converse`: choose each call by the answers so far.

What holds of many calls is proved from what one call does:

- `drive_pending`, `drivePhases_pending`: when every call returns, and
  takes its own contribution off the front of a pending list, the
  calls return, and have taken off the contributions of their answers
  in order, nothing twice and nothing lost;
- `drivePhases_path`: a run that returned is a chain of calls;
- `Path.length_add_le`, `exists_path_to_end`: a measure that every step
  brings down bounds the length of every chain, and there is one that
  cannot go on;
- `drive_stops`, `drivePhases_stops`: a measure that every call brings
  down bounds the budget it takes to be stopped; `drive_ends` and
  `drivePhases_ends` are the same from an invariant;
- `converse_simulates`: what a driver gets from one machine, it gets
  from any machine that answers every call in the same way;
- `converse_traced_back`: the same from the end backwards, for a machine
  whose states are only known by what is still to come.
-/
import Mathlib.Data.List.Basic

namespace Machine

variable {σ τ o i α : Type*}

-- ============================================================ chains

/-- `outs` are the answers of a chain of `step`s from one state to
another. -/
inductive Path (step : σ → o → σ → Prop) : σ → List o → σ → Prop
  | nil (s : σ) : Path step s [] s
  | cons {s s' s'' : σ} {r : o} {outs : List o} (h : step s r s')
      (rest : Path step s' outs s'') : Path step s (r :: outs) s''

/-- Chains compose. -/
theorem Path.append {step : σ → o → σ → Prop} {s s' s'' : σ}
    {outs outs' : List o} (h : Path step s outs s')
    (h' : Path step s' outs' s'') : Path step s (outs ++ outs') s'' := by
  induction h with
  | nil => exact h'
  | cons hstep _ ih => exact .cons hstep (ih h')

/-- What every step does to the state, a chain does. -/
theorem Path.relates {step : σ → o → σ → Prop} {R : σ → σ → Prop}
    (hrefl : ∀ s, R s s) (htrans : ∀ {s s' s''}, R s s' → R s' s'' → R s s'')
    (hstep : ∀ {s r s'}, step s r s' → R s s') {s s' : σ} {outs : List o}
    (h : Path step s outs s') : R s s' := by
  induction h with
  | nil s => exact hrefl s
  | cons hfirst _ ih => exact htrans (hstep hfirst) ih

/-- When every step brings a measure down, a chain is no longer than
what it takes off the measure. -/
theorem Path.length_add_le {step : σ → o → σ → Prop} (m : σ → Nat)
    (hstep : ∀ {s r s'}, step s r s' → m s' < m s) {s s' : σ} {outs : List o}
    (h : Path step s outs s') : outs.length + m s' ≤ m s := by
  induction h with
  | nil => simp
  | cons hfirst _ ih =>
      have hlt := hstep hfirst
      rw [List.length_cons]
      omega

/-- And from every state there is a chain to one without a step. -/
theorem exists_path_to_end {step : σ → o → σ → Prop} (m : σ → Nat)
    (hstep : ∀ {s r s'}, step s r s' → m s' < m s) (s : σ) :
    ∃ outs s', Path step s outs s' ∧ ∀ r s'', ¬ step s' r s'' := by
  induction hm : m s using Nat.strongRecOn generalizing s with
  | _ k ih =>
      by_cases hend : ∃ r s', step s r s'
      · obtain ⟨r, s₁, hfirst⟩ := hend
        obtain ⟨outs, s', hpath, hlast⟩ := ih _ (hm ▸ hstep hfirst) s₁ rfl
        exact ⟨r :: outs, s', .cons hfirst hpath, hlast⟩
      · exact ⟨[], s, .nil s, fun r s' h => hend ⟨r, s', h⟩⟩

-- ============================================================ drives

/-- Call until an answer stops the driver, at most `n` times: the
answers in order and the last state, `none` if a call panicked. -/
def drive (call : σ → Option (o × σ)) (stop : o → Bool) :
    Nat → σ → Option (List o × σ)
  | 0, s => some ([], s)
  | n + 1, s => do
      let (r, s') ← call s
      if stop r then return ([r], s')
      let (outs, s'') ← drive call stop n s'
      return (r :: outs, s'')

section Drive

variable {call : σ → Option (o × σ)} {stop : o → Bool}

/-- The first call of a drive, and what the rest of it does. -/
theorem drive_succ_inv {n : Nat} {s s'' : σ} {outs : List o}
    (h : drive call stop (n + 1) s = some (outs, s'')) :
    ∃ r s', call s = some (r, s') ∧
      ((stop r = true ∧ outs = [r] ∧ s'' = s') ∨
        (stop r = false ∧ ∃ outs', outs = r :: outs'
          ∧ drive call stop n s' = some (outs', s''))) := by
  simp only [drive, Option.bind_eq_bind] at h
  cases hc : call s with
  | none => simp [hc] at h
  | some p =>
      obtain ⟨r, s'⟩ := p
      rw [hc, Option.bind_some] at h
      refine ⟨r, s', rfl, ?_⟩
      cases hr : stop r with
      | true =>
          simp only [hr, if_true] at h
          injection h with h
          injection h with h1 h2
          exact .inl ⟨rfl, h1.symm, h2.symm⟩
      | false =>
          simp only [hr, Bool.false_eq_true, if_false] at h
          cases hd : drive call stop n s' with
          | none => simp [hd] at h
          | some q =>
              obtain ⟨outs', t⟩ := q
              rw [hd, Option.bind_some] at h
              injection h with h
              injection h with h1 h2
              subst h1 h2
              exact .inr ⟨rfl, outs', rfl, rfl⟩

/-- When every call returns and takes its own contribution off the
front of what is pending, so does a drive. `Pend` says what is pending
while it goes on, `Done` what is after it stopped. -/
theorem drive_pending {Pend Done : σ → List α → Prop} {out : o → List α}
    (hcall : ∀ s l, Pend s l → ∃ r s' l', call s = some (r, s')
      ∧ l = out r ++ l' ∧ if stop r then Done s' l' else Pend s' l')
    (n : Nat) {s : σ} {l : List α} (hs : Pend s l) :
    ∃ outs s' l', drive call stop n s = some (outs, s')
      ∧ l = outs.flatMap out ++ l' ∧ outs.countP stop ≤ 1
      ∧ if outs.any stop then Done s' l' else Pend s' l' := by
  induction n generalizing s l with
  | zero => exact ⟨[], s, l, rfl, rfl, by simp, hs⟩
  | succ n ih =>
      obtain ⟨r, s₁, l₁, hc, rfl, hnext⟩ := hcall s l hs
      cases hr : stop r with
      | true =>
          rw [if_pos hr] at hnext
          refine ⟨[r], s₁, l₁, by simp [drive, hc, hr], by simp, ?_, ?_⟩
          · simp [hr]
          · simpa [hr] using hnext
      | false =>
          simp only [hr, Bool.false_eq_true, if_false] at hnext
          obtain ⟨outs, s', l', hd, rfl, hcount, hlast⟩ := ih hnext
          refine ⟨r :: outs, s', l', by simp [drive, hc, hr, hd], by simp, ?_, ?_⟩
          · simpa [hr] using hcount
          · simpa [hr] using hlast

/-- When every call that does not stop brings a measure down, a budget
above the measure is enough to be stopped; `Done` is what a stopping
call leaves behind. -/
theorem drive_stops {Done : σ → Prop} (m : σ → Nat) {k : Nat}
    (hcall : ∀ s r s', m s ≤ k → call s = some (r, s') →
      if stop r then Done s' else m s' < m s)
    {n : Nat} {s s' : σ} {outs : List o} (hk : m s ≤ k) (hn : m s < n)
    (h : drive call stop n s = some (outs, s')) :
    outs.any stop = true ∧ Done s' := by
  induction n generalizing s outs with
  | zero => omega
  | succ n ih =>
      obtain ⟨r, s₁, hc, ⟨hr, rfl, rfl⟩ | ⟨hr, outs', rfl, hd⟩⟩ :=
        drive_succ_inv h
      · have hdone := hcall s r _ hk hc
        rw [if_pos hr] at hdone
        exact ⟨by simp [hr], hdone⟩
      · have hlt := hcall s r s₁ hk hc
        simp only [hr, Bool.false_eq_true, if_false] at hlt
        obtain ⟨hany, hdone⟩ := ih (by omega) (by omega) hd
        exact ⟨by simp [hany], hdone⟩

/-- The same from an invariant, which every call keeps that does not stop
the driver. -/
theorem drive_ends {Inv Done : σ → Prop} (m : σ → Nat)
    (hcall : ∀ s r s', Inv s → call s = some (r, s') →
      if stop r then Done s' else Inv s' ∧ m s' < m s)
    {n : Nat} {s s' : σ} {outs : List o} (hs : Inv s) (hn : m s < n)
    (h : drive call stop n s = some (outs, s')) :
    outs.any stop = true ∧ Done s' := by
  induction n generalizing s outs with
  | zero => omega
  | succ n ih =>
      obtain ⟨r, s₁, hc, ⟨hr, rfl, rfl⟩ | ⟨hr, outs', rfl, hd⟩⟩ :=
        drive_succ_inv h
      · have hdone := hcall s r _ hs hc
        rw [if_pos hr] at hdone
        exact ⟨by simp [hr], hdone⟩
      · have hnext := hcall s r s₁ hs hc
        simp only [hr, Bool.false_eq_true, if_false] at hnext
        obtain ⟨hany, hdone⟩ := ih hnext.1 (by omega) hd
        exact ⟨by simp [hany], hdone⟩

end Drive

-- ============================================================ phases

/-- One drive for each phase, with the phase's budget; a phase that is
not stopped is the last. -/
def drivePhases (call : i → σ → Option (o × σ)) (stop : o → Bool) :
    List (i × Nat) → σ → Option (List o × σ)
  | [], s => some ([], s)
  | (x, n) :: phases, s => do
      let (outs, s') ← drive (call x) stop n s
      if outs.any stop then
        let (more, s'') ← drivePhases call stop phases s'
        return (outs ++ more, s'')
      else return (outs, s')

/-- One call of a run in phases: it is made in the first phase left,
and an answer that stops ends the phase. -/
def PhaseStep (call : i → σ → Option (o × σ)) (stop : o → Bool)
    (s : List i × σ) (r : o) (s' : List i × σ) : Prop :=
  ∃ x xs, s.1 = x :: xs ∧ call x s.2 = some (r, s'.2)
    ∧ s'.1 = if stop r then xs else x :: xs

section Phases

variable {call : i → σ → Option (o × σ)} {stop : o → Bool}

/-- A drive is a chain of calls in its phase. -/
theorem drive_path {x : i} (xs : List i) {n : Nat} {s s' : σ}
    {outs : List o} (h : drive (call x) stop n s = some (outs, s')) :
    Path (PhaseStep call stop) (x :: xs, s) outs
        (if outs.any stop then xs else x :: xs, s')
      ∧ outs.countP stop = if outs.any stop then 1 else 0 := by
  induction n generalizing s outs with
  | zero =>
      simp only [drive, Option.some.injEq, Prod.mk.injEq] at h
      obtain ⟨rfl, rfl⟩ := h
      exact ⟨.nil _, rfl⟩
  | succ n ih =>
      obtain ⟨r, s₁, hc, ⟨hr, rfl, rfl⟩ | ⟨hr, outs', rfl, hd⟩⟩ :=
        drive_succ_inv h
      · refine ⟨.cons ⟨x, xs, rfl, hc, ?_⟩ (.nil _), ?_⟩ <;> simp [hr]
      · obtain ⟨hpath, hcount⟩ := ih hd
        have hstep : PhaseStep call stop (x :: xs, s) r (x :: xs, s₁) :=
          ⟨x, xs, rfl, hc, by simp [hr]⟩
        refine ⟨?_, ?_⟩
        · simpa [hr] using Path.cons hstep hpath
        · simpa [hr] using hcount

/-- A run in phases is a chain of calls, and every stopping answer has
ended a phase. -/
theorem drivePhases_path {phases : List (i × Nat)} {s s' : σ}
    {outs : List o} (h : drivePhases call stop phases s = some (outs, s')) :
    ∃ left, Path (PhaseStep call stop) (phases.map Prod.fst, s) outs (left, s')
      ∧ outs.countP stop + left.length = phases.length := by
  induction phases generalizing s outs with
  | nil =>
      simp only [drivePhases, Option.some.injEq, Prod.mk.injEq] at h
      obtain ⟨rfl, rfl⟩ := h
      exact ⟨[], .nil _, rfl⟩
  | cons phase phases ih =>
      obtain ⟨x, n⟩ := phase
      simp only [drivePhases, Option.bind_eq_bind, Option.bind_eq_some_iff] at h
      obtain ⟨⟨outs₁, s₁⟩, hd, h⟩ := h
      obtain ⟨hpath, hcount⟩ := drive_path (phases.map Prod.fst) hd
      cases hany : outs₁.any stop with
      | true =>
          simp only [hany, if_true, Option.bind_eq_some_iff] at h hpath hcount
          obtain ⟨⟨more, s₂⟩, hmore, heq⟩ := h
          injection heq with heq
          injection heq with h1 h2
          subst h1 h2
          obtain ⟨left, hpath', hcount'⟩ := ih hmore
          refine ⟨left, hpath.append hpath', ?_⟩
          rw [List.countP_append, List.length_cons, hcount]
          dsimp only
          omega
      | false =>
          simp only [hany, Bool.false_eq_true, if_false] at h hpath hcount
          cases h
          refine ⟨x :: phases.map Prod.fst, hpath, ?_⟩
          simp [hcount]

/-- When every call returns and takes its own contribution off the
front of what is pending, with the phases still to come, so does a run
in phases, and it has taken off everything once all phases ended. -/
theorem drivePhases_pending {Pend : List i → σ → List α → Prop}
    {out : o → List α}
    (hcall : ∀ x xs s l, Pend (x :: xs) s l → ∃ r s' l',
      call x s = some (r, s') ∧ l = out r ++ l'
        ∧ Pend (if stop r then xs else x :: xs) s' l')
    (hend : ∀ s l, Pend [] s l → l = []) (phases : List (i × Nat)) {s : σ}
    {l : List α} (hs : Pend (phases.map Prod.fst) s l) :
    ∃ outs s', drivePhases call stop phases s = some (outs, s')
      ∧ outs.flatMap out <+: l
      ∧ outs.countP stop ≤ phases.length
      ∧ (outs.countP stop = phases.length → outs.flatMap out = l) := by
  induction phases generalizing s l with
  | nil =>
      refine ⟨[], s, rfl, List.nil_prefix, Nat.le_refl _, fun _ => ?_⟩
      rw [hend s l hs]
      rfl
  | cons phase phases ih =>
      obtain ⟨x, n⟩ := phase
      have hphase : ∀ s l, Pend (x :: phases.map Prod.fst) s l → ∃ r s' l',
          call x s = some (r, s') ∧ l = out r ++ l'
            ∧ if stop r then Pend (phases.map Prod.fst) s' l'
              else Pend (x :: phases.map Prod.fst) s' l' := by
        intro s l hs
        obtain ⟨r, s', l', hc, hl, hnext⟩ := hcall x _ s l hs
        refine ⟨r, s', l', hc, hl, ?_⟩
        cases hr : stop r <;> simpa [hr] using hnext
      obtain ⟨outs, s₁, l₁, hd, rfl, hcount, hlast⟩ := drive_pending hphase n hs
      have hcount₁ := (drive_path (phases.map Prod.fst) hd).2
      cases hany : outs.any stop with
      | true =>
          simp only [hany, if_true] at hlast hcount₁
          obtain ⟨more, s₂, hmore, hpre, hle, hall⟩ := ih hlast
          have hrun : drivePhases call stop ((x, n) :: phases) s
              = some (outs ++ more, s₂) := by
            simp only [drivePhases, hd, hany, hmore, Option.bind_eq_bind,
              Option.bind_some, if_true]
            rfl
          refine ⟨outs ++ more, s₂, hrun, ?_, ?_, fun hn => ?_⟩
          · rw [List.flatMap_append]
            exact (List.prefix_append_right_inj _).mpr hpre
          · rw [List.countP_append, List.length_cons]
            omega
          · rw [List.countP_append, List.length_cons] at hn
            rw [List.flatMap_append, hall (by omega)]
      | false =>
          simp only [hany, Bool.false_eq_true, if_false] at hcount₁
          have hrun : drivePhases call stop ((x, n) :: phases) s
              = some (outs, s₁) := by
            simp only [drivePhases, hd, hany, Option.bind_eq_bind,
              Option.bind_some, Bool.false_eq_true, if_false]
            rfl
          refine ⟨outs, s₁, hrun, List.prefix_append _ _, ?_, fun hn => ?_⟩
          · rw [List.length_cons]
            omega
          · rw [List.length_cons] at hn
            omega

/-- When every call that does not stop brings a measure down, and none
raises it, all phases end on a budget above the measure. -/
theorem drivePhases_stops (m : List i → σ → Nat) {n : Nat}
    (hcall : ∀ x xs s r s', call x s = some (r, s') →
      if stop r then m xs s' ≤ m (x :: xs) s
      else m (x :: xs) s' < m (x :: xs) s)
    {xs : List i} {s s' : σ} {outs : List o} (hn : m xs s < n)
    (h : drivePhases call stop (xs.map (·, n)) s = some (outs, s')) :
    outs.countP stop = xs.length := by
  induction xs generalizing s outs with
  | nil =>
      simp only [List.map_nil, drivePhases, Option.some.injEq,
        Prod.mk.injEq] at h
      obtain ⟨rfl, rfl⟩ := h
      rfl
  | cons x xs ih =>
      rw [List.map_cons] at h
      simp only [drivePhases, Option.bind_eq_bind, Option.bind_eq_some_iff] at h
      obtain ⟨⟨outs₁, s₁⟩, hd, h⟩ := h
      have hphase : ∀ t r t', m (x :: xs) t ≤ m (x :: xs) s →
          call x t = some (r, t') →
          if stop r then m xs t' ≤ m (x :: xs) s
          else m (x :: xs) t' < m (x :: xs) t := by
        intro t r t' hle hc
        have := hcall x xs t r t' hc
        cases hr : stop r <;> simp only [hr] at this ⊢
        · exact this
        · exact Nat.le_trans this hle
      obtain ⟨hany, hdone⟩ := drive_stops (m (x :: xs)) hphase (Nat.le_refl _)
        hn hd
      have hcount := (drive_path xs hd).2
      simp only [hany, if_true, Option.bind_eq_some_iff] at h hcount
      obtain ⟨⟨more, s₂⟩, hmore, heq⟩ := h
      injection heq with heq
      injection heq with h1 h2
      subst h1 h2
      have hrest := ih (by omega) hmore
      rw [List.countP_append, hcount, List.length_cons]
      dsimp only
      omega

/-- The same from an invariant, with a budget of its own for each phase. -/
theorem drivePhases_ends {Inv : List i → σ → Prop} (m : List i → σ → Nat)
    (hcall : ∀ x xs s r s', Inv (x :: xs) s → call x s = some (r, s') →
      if stop r then Inv xs s' ∧ m xs s' ≤ m (x :: xs) s
      else Inv (x :: xs) s' ∧ m (x :: xs) s' < m (x :: xs) s)
    {phases : List (i × Nat)} {s s' : σ} {outs : List o}
    (hs : Inv (phases.map Prod.fst) s)
    (hn : ∀ phase ∈ phases, m (phases.map Prod.fst) s < phase.2)
    (h : drivePhases call stop phases s = some (outs, s')) :
    outs.countP stop = phases.length := by
  induction phases generalizing s outs with
  | nil =>
      simp only [drivePhases, Option.some.injEq, Prod.mk.injEq] at h
      obtain ⟨rfl, rfl⟩ := h
      rfl
  | cons phase phases ih =>
      obtain ⟨x, n⟩ := phase
      simp only [drivePhases, Option.bind_eq_bind, Option.bind_eq_some_iff] at h
      obtain ⟨⟨outs₁, s₁⟩, hd, h⟩ := h
      rw [List.map_cons] at hs hn
      -- within the phase the measure stays below where it began
      have hphase : ∀ t r t', (Inv (x :: phases.map Prod.fst) t
            ∧ m (x :: phases.map Prod.fst) t
              ≤ m (x :: phases.map Prod.fst) s) →
          call x t = some (r, t') →
          if stop r then Inv (phases.map Prod.fst) t'
            ∧ m (phases.map Prod.fst) t' ≤ m (x :: phases.map Prod.fst) s
          else (Inv (x :: phases.map Prod.fst) t'
            ∧ m (x :: phases.map Prod.fst) t'
              ≤ m (x :: phases.map Prod.fst) s)
            ∧ m (x :: phases.map Prod.fst) t'
              < m (x :: phases.map Prod.fst) t := by
        intro t r t' ht hc
        have hnext := hcall x _ t r t' ht.1 hc
        cases hr : stop r with
        | true =>
            simp only [hr, if_true] at hnext ⊢
            exact ⟨hnext.1, Nat.le_trans hnext.2 ht.2⟩
        | false =>
            simp only [hr, Bool.false_eq_true, if_false] at hnext ⊢
            exact ⟨⟨hnext.1, Nat.le_trans (Nat.le_of_lt hnext.2) ht.2⟩,
              hnext.2⟩
      obtain ⟨hany, hinv, hle⟩ := drive_ends (m (x :: phases.map Prod.fst))
        hphase ⟨hs, Nat.le_refl _⟩ (hn (x, n) List.mem_cons_self) hd
      have hcount := (drive_path (phases.map Prod.fst) hd).2
      simp only [hany, if_true, Option.bind_eq_some_iff] at h hcount
      obtain ⟨⟨more, s₂⟩, hmore, heq⟩ := h
      injection heq with heq
      injection heq with h1 h2
      subst h1 h2
      have hrest := ih hinv (fun later hlater => Nat.lt_of_le_of_lt hle
        (hn later (List.mem_cons_of_mem _ hlater))) hmore
      rw [List.countP_append, hcount, hrest, List.length_cons]
      omega

end Phases

-- ========================================================= dialogues

/-- A driver picks each call by the answers so far, until it has no
more to ask or `n` calls are made: all answers and the last state. -/
def converse (call : i → σ → Option (o × σ)) (driver : List o → Option i) :
    Nat → List o → σ → Option (List o × σ)
  | 0, answers, s => some (answers, s)
  | n + 1, answers, s =>
      match driver answers with
      | none => some (answers, s)
      | some x => do
          let (r, s') ← call x s
          converse call driver n (answers ++ [r]) s'

/-- Calls that are answered alike, from related states to related
states, make dialogues that are answered alike. -/
theorem converse_simulates {call : i → σ → Option (o × σ)}
    {call' : i → τ → Option (o × τ)} {R : σ → τ → Prop}
    (hcall : ∀ x s t r s', R s t → call x s = some (r, s') →
      ∃ t', call' x t = some (r, t') ∧ R s' t')
    (driver : List o → Option i) (n : Nat) {answers : List o} {s : σ}
    {t : τ} (hst : R s t) {outs : List o} {s' : σ}
    (h : converse call driver n answers s = some (outs, s')) :
    ∃ t', converse call' driver n answers t = some (outs, t') ∧ R s' t' := by
  induction n generalizing answers s t with
  | zero =>
      simp only [converse, Option.some.injEq, Prod.mk.injEq] at h
      obtain ⟨rfl, rfl⟩ := h
      exact ⟨t, rfl, hst⟩
  | succ n ih =>
      unfold converse at h ⊢
      cases hd : driver answers with
      | none =>
          simp only [hd, Option.some.injEq, Prod.mk.injEq] at h
          obtain ⟨rfl, rfl⟩ := h
          exact ⟨t, rfl, hst⟩
      | some x =>
          simp only [hd, Option.bind_eq_bind] at h ⊢
          cases hc : call x s with
          | none => simp [hc] at h
          | some p =>
              obtain ⟨r, s₁⟩ := p
              rw [hc, Option.bind_some] at h
              obtain ⟨t₁, hc', hst₁⟩ := hcall x s t r s₁ hst hc
              rw [hc', Option.bind_some]
              exact ih hst₁ h

/-- When every answered call of the one machine leads, from some related
state, to any state of the other that its end is related to, a whole
dialogue does: the other machine's start is built from its end. -/
theorem converse_traced_back {call : i → σ → Option (o × σ)}
    {call' : i → τ → Option (o × τ)} {R : σ → τ → Prop}
    (hcall : ∀ x s r s' t', R s' t' → call x s = some (r, s') →
      ∃ t, call' x t = some (r, t') ∧ R s t)
    (driver : List o → Option i) (n : Nat) {answers : List o} {s s' : σ}
    {t' : τ} (hst : R s' t') {outs : List o}
    (h : converse call driver n answers s = some (outs, s')) :
    ∃ t, converse call' driver n answers t = some (outs, t') ∧ R s t := by
  induction n generalizing answers s with
  | zero =>
      simp only [converse, Option.some.injEq, Prod.mk.injEq] at h
      obtain ⟨rfl, rfl⟩ := h
      exact ⟨t', rfl, hst⟩
  | succ n ih =>
      unfold converse at h ⊢
      cases hd : driver answers with
      | none =>
          simp only [hd, Option.some.injEq, Prod.mk.injEq] at h
          obtain ⟨rfl, rfl⟩ := h
          exact ⟨t', rfl, hst⟩
      | some x =>
          simp only [hd, Option.bind_eq_bind] at h ⊢
          cases hc : call x s with
          | none => simp [hc] at h
          | some p =>
              obtain ⟨r, s₁⟩ := p
              rw [hc, Option.bind_some] at h
              obtain ⟨t₁, hrest, hst₁⟩ := ih h
              obtain ⟨t, hc', hst₀⟩ := hcall x s r s₁ t₁ hst₁ hc
              refine ⟨t, ?_, hst₀⟩
              rw [hc', Option.bind_some]
              exact hrest

/-- A dialogue is a path of the calls the driver has made. -/
theorem converse_path {call : i → σ → Option (o × σ)}
    {driver : List o → Option i} {n : Nat} {answers outs : List o} {s s' : σ}
    (h : converse call driver n answers s = some (outs, s')) :
    ∃ calls, Path (fun s x s' => ∃ r, call x s = some (r, s')) s calls s' := by
  induction n generalizing answers s with
  | zero =>
      simp only [converse, Option.some.injEq, Prod.mk.injEq] at h
      obtain ⟨-, rfl⟩ := h
      exact ⟨[], .nil _⟩
  | succ n ih =>
      unfold converse at h
      cases hd : driver answers with
      | none =>
          simp only [hd, Option.some.injEq, Prod.mk.injEq] at h
          obtain ⟨-, rfl⟩ := h
          exact ⟨[], .nil _⟩
      | some x =>
          simp only [hd, Option.bind_eq_bind, Option.bind_eq_some_iff] at h
          obtain ⟨⟨r, s₁⟩, hx, h⟩ := h
          obtain ⟨calls, hpath⟩ := ih h
          exact ⟨x :: calls, .cons ⟨r, hx⟩ hpath⟩

/-- A dialogue that the driver has ended is not changed by allowing it more
or fewer calls, as long as it still ends. -/
theorem converse_unique {call : i → σ → Option (o × σ)}
    {driver : List o → Option i} {n m : Nat} {answers outs outs' : List o}
    {s s' s'' : σ} (h : converse call driver n answers s = some (outs, s'))
    (hend : driver outs = none)
    (h' : converse call driver m answers s = some (outs', s''))
    (hend' : driver outs' = none) : outs = outs' ∧ s' = s'' := by
  induction n generalizing m answers s with
  | zero =>
      simp only [converse, Option.some.injEq, Prod.mk.injEq] at h
      obtain ⟨rfl, rfl⟩ := h
      cases m with
      | zero => simpa [converse] using h'
      | succ m => simpa [converse, hend] using h'
  | succ n ih =>
      cases m with
      | zero =>
          simp only [converse, Option.some.injEq, Prod.mk.injEq] at h'
          obtain ⟨rfl, rfl⟩ := h'
          have h : answers = outs ∧ s = s' := by simpa [converse, hend'] using h
          exact ⟨h.1.symm, h.2.symm⟩
      | succ m =>
          unfold converse at h h'
          cases hd : driver answers with
          | none =>
              simp only [hd, Option.some.injEq, Prod.mk.injEq] at h h'
              exact ⟨h.1.symm.trans h'.1, h.2.symm.trans h'.2⟩
          | some x =>
              simp only [hd, Option.bind_eq_bind, Option.bind_eq_some_iff] at h h'
              obtain ⟨⟨r, s₁⟩, hx, h⟩ := h
              obtain ⟨⟨r', s₂⟩, hx', h'⟩ := h'
              rw [hx] at hx'
              cases hx'
              exact ih h h'

end Machine

import EvmDebugger.Page.Shown

/-!
# One command at a time

The page disables its buttons as soon as one of them is pressed, until there is an answer. That is
meant to keep the user from giving a command before the last one has been executed, and it does, if
the user does not get around it: keys are never disabled, and another transaction may be loaded at
any time.

Whoever uses the buttons only, and does not load a transaction while a command is under way
(`EvmDebugger.Tab.Careful`), gives one command at a time, and whenever a row is marked, it is that
of the snapshot that is shown (`EvmDebugger.one_command_at_a_time`). The two are one invariant,
`EvmDebugger.Tab.Single`: whenever a command is waited for, the buttons are disabled and nothing is
being loaded, and whenever something is being loaded, the buttons are disabled as well.
-/

namespace EvmDebugger

/-- The task is a command. -/
def PageTask.isCommand : PageTask → Bool
  | commanding _ => true
  | creating | sleeping _ | polling .. | tracing .. | aborting _ => false

namespace Tab

/-- **The user is careful**: uses no keys, and loads no transaction while a command is under way. -/
def Careful (t : Tab) : TabAction → Prop
  | .load _ _ => ∀ r, .commanding r ∉ t.tasks
  | .press _ byKey _ => byKey = false
  | .abort _ | .settle _ _ | .server _ => True

/-- **There is one command at most**, and while there is one, no button can be pressed and no load
is under way; nor can a button be pressed while there is a load. -/
structure Single (t : Tab) : Prop where
  command : t.tasks.countP PageTask.isCommand ≤ 1
  disabled : ∀ r, .commanding r ∈ t.tasks →
    t.page.buttonsEnabled = false ∧ t.page.loadInFlight = false
  loading : t.page.loadInFlight = true → t.page.buttonsEnabled = false

variable {entries : StorageChanges → List (String × List (String × String))} {ttl : ℕ}
  {rq : ℕ → Request} {t t' : Tab} {n : ℕ} {task : PageTask} {page : Page}

theorem single_init : init.Single where
  command := Nat.zero_le 1
  disabled _ h := absurd h List.not_mem_nil
  loading h := absurd h (by simp [init, Page.init])

/-- There is no command. -/
theorem countP_isCommand_eq_zero {tasks : List PageTask} (h : ∀ r, .commanding r ∉ tasks) :
    tasks.countP PageTask.isCommand = 0 := by
  refine List.countP_eq_zero.mpr fun task htask hcommand => ?_
  cases task with
  | commanding r => exact h r htask
  | creating | sleeping _ | polling _ _ | tracing _ _ _ | aborting _ =>
    exact absurd hcommand (by simp [PageTask.isCommand])

/-- No command is under way while there is a load. -/
theorem Single.not_commanding (h : t.Single) (hload : t.page.loadInFlight = true) (r : ℕ) :
    .commanding r ∉ t.tasks := fun hr => by
  rw [(h.disabled r hr).2] at hload
  exact absurd hload (by simp)

/-- Nor while the buttons are enabled, -/
theorem Single.not_commanding' (h : t.Single) (henabled : t.page.buttonsEnabled = true) (r : ℕ) :
    .commanding r ∉ t.tasks := fun hr => by
  rw [(h.disabled r hr).1] at henabled
  exact absurd henabled (by simp)

/-- nor is there a load. -/
theorem Single.not_loading (h : t.Single) (henabled : t.page.buttonsEnabled = true) :
    t.page.loadInFlight = false := by
  cases hload : t.page.loadInFlight with
  | false => rfl
  | true => exact absurd (henabled.symm.trans (h.loading hload)) (by simp)

/-- **A task is over**, and the buttons are as they were, or no other command is under way. -/
theorem Single.finish (h : t.Single)
    (hbuttons : (∀ r, .commanding r ∉ t.tasks.eraseIdx n) ∨
      page.buttonsEnabled = t.page.buttonsEnabled)
    (hload : page.loadInFlight = true →
      t.page.loadInFlight = true ∧ page.buttonsEnabled = t.page.buttonsEnabled) :
    (t.finish n page).Single where
  command := Nat.le_trans ((List.eraseIdx_sublist t.tasks n).countP_le) h.command
  disabled r hr := by
    obtain ⟨hdisabled, hidle⟩ := h.disabled r (List.mem_of_mem_eraseIdx hr)
    refine ⟨?_, ?_⟩
    · rcases hbuttons with hnone | hsame
      · exact absurd hr (hnone r)
      · exact hsame.trans hdisabled
    · cases hpage : page.loadInFlight with
      | false => exact hpage
      | true => exact absurd ((hload hpage).1.symm.trans hidle) (by simp)
  loading hpage := by
    obtain ⟨hflight, hsame⟩ := hload hpage
    exact hsame.trans (h.loading hflight)

/-- **A command is over**, and the load is as it was. -/
theorem Single.finishCommand (h : t.Single) {r : ℕ} (hn : t.tasks[n]? = some (.commanding r))
    (hload : page.loadInFlight = t.page.loadInFlight) : (t.finish n page).Single := by
  have hidle := (h.disabled r (List.mem_of_getElem? hn)).2
  refine h.finish (Or.inl fun r' hr' => ?_) fun hpage => absurd (hload.symm.trans hpage) ?_
  · -- there is no second one
    have hcount := h.command
    have hpos := List.countP_pos_iff.mpr
      ⟨_, hr', (rfl : PageTask.isCommand (.commanding r') = true)⟩
    rw [← (perm_eraseIdx hn).countP_eq, List.countP_cons_of_pos (by rfl)] at hcount
    omega
  · rw [hidle]
    simp

/-- **A load is over.** -/
theorem Single.finishLoad (h : t.Single) (hflight : t.page.loadInFlight = true) (page : Page) :
    (t.finish n page.endLoad).Single :=
  h.finish (Or.inl fun r hr => h.not_commanding hflight r (List.mem_of_mem_eraseIdx hr))
    fun hload => absurd hload (by simp [Page.endLoad])

/-- **A load waits for something else**, with the buttons disabled. -/
theorem Single.goOn (h : t.Single) (hn : t.tasks[n]? = some task)
    (hflight : t.page.loadInFlight = true) {next : PageTask} (hnext : next.isCommand = false)
    (hdisabled : page.buttonsEnabled = false) : (t.goOn n page next).Single := by
  have hperm := perm_set hn next
  have hnone : ∀ r, .commanding r ∉ t.tasks.set n next := by
    intro r hr
    rcases List.mem_cons.mp (hperm.mem_iff.mpr hr) with rfl | hr
    · exact absurd hnext (by simp [PageTask.isCommand])
    · exact h.not_commanding hflight r (List.mem_of_mem_eraseIdx hr)
  refine ⟨?_, fun r hr => absurd hr (hnone r), fun _ => hdisabled⟩
  show (t.tasks.set n next).countP PageTask.isCommand ≤ 1
  rw [countP_isCommand_eq_zero hnone]
  exact Nat.zero_le 1

/-- **Somebody else waits**, with the buttons disabled: a command, if there is no other and nothing
is being loaded. -/
theorem Single.add (h : t.Single)
    (hcommand : task.isCommand = true →
      (∀ r, .commanding r ∉ t.tasks) ∧ page.loadInFlight = false)
    (hdisabled : page.buttonsEnabled = false)
    (hload : page.loadInFlight = true → ∀ r, .commanding r ∉ t.tasks) (sent : List ℕ) :
    Single { t with page := page, tasks := t.tasks ++ [task], sent := sent } where
  command := by
    show (t.tasks ++ [task]).countP PageTask.isCommand ≤ 1
    rw [List.countP_append, List.countP_singleton]
    split
    · next hisCommand => rw [countP_isCommand_eq_zero (hcommand hisCommand).1]
    · exact h.command
  disabled r hr := by
    refine ⟨hdisabled, ?_⟩
    show page.loadInFlight = false
    cases hpage : page.loadInFlight with
    | false => rfl
    | true =>
      rcases List.mem_append.mp hr with hr | hr
      · exact absurd hr (hload hpage r)
      · have hidle := (hcommand (by rw [← List.mem_singleton.mp hr]; rfl)).2
        exact absurd (hidle.symm.trans hpage) (by simp)
  loading _ := hdisabled

/-- And who waits for something else. -/
theorem Single.add_other (h : t.Single) (hcommand : task.isCommand = false)
    (hdisabled : page.buttonsEnabled = false)
    (hload : page.loadInFlight = true → ∀ r, .commanding r ∉ t.tasks) (sent : List ℕ) :
    Single { t with page := page, tasks := t.tasks ++ [task], sent := sent } :=
  h.add (fun hisCommand => absurd (hcommand.symm.trans hisCommand) (by simp)) hdisabled hload sent

/-! ### What arrives -/

/-- A session has been created. -/
theorem Single.created (h : t.Single) (hn : t.tasks[n]? = some task)
    (hflight : t.page.loadInFlight = true) (e : Entry) : (t.created entries n e).Single := by
  rw [Tab.created]
  split
  · exact h.finishLoad hflight _
  · next page heq =>
    split
    · next hstate =>
      rw [hstate] at heq
      have hpage := congrArg Prod.fst heq
      exact h.goOn hn hflight rfl (congrArg Page.buttonsEnabled hpage).symm
    · exact h.finishLoad hflight _

/-- The state has arrived. -/
theorem Single.polled (h : t.Single) (hn : t.tasks[n]? = some task)
    (hflight : t.page.loadInFlight = true) {id : String} {next : ℕ} {body : Body}
    (hs : t.polled entries rq n id next body = some t') : t'.Single := by
  rw [Tab.polled.eq_def] at hs
  split at hs
  · obtain rfl := Option.some.inj hs
    exact h.goOn hn hflight rfl (h.loading hflight)
  · obtain ⟨t₁, hsend, rfl⟩ := Option.map_eq_some_iff.mp hs
    obtain ⟨-, rfl⟩ := send_eq_some hsend
    exact Single.goOn (t := { t with sent := next :: t.sent }) ⟨h.command, h.disabled, h.loading⟩ hn
      hflight rfl (h.loading hflight)
  all_goals
    obtain rfl := Option.some.inj hs
    exact h.finishLoad hflight _

/-- **Whatever arrives**, there is one command at most. -/
theorem Single.settle (h : t.Single) (hc : t.Coherent entries False rq)
    (hn : t.tasks[n]? = some task) {arrival : Arrival}
    (hs : t.settle entries rq n task arrival = some t') : t'.Single := by
  have hflight : task.isLoad = true → t.page.loadInFlight = true := fun hload =>
    (hc.only_load hn hload).1
  rw [Tab.settle.eq_def] at hs
  split at hs
  · obtain ⟨e, -, rfl⟩ := Option.map_eq_some_iff.mp hs
    exact h.created hn (hflight rfl) e
  · obtain rfl := Option.some.inj hs
    exact h.finishLoad (hflight rfl) _
  · next id next =>
    obtain ⟨t₁, hsend, rfl⟩ := Option.map_eq_some_iff.mp hs
    obtain ⟨-, rfl⟩ := send_eq_some hsend
    exact Single.goOn (t := { t with sent := next :: t.sent }) ⟨h.command, h.disabled, h.loading⟩ hn
      (hflight rfl) rfl (h.loading (hflight rfl))
  · obtain ⟨response, -, hs⟩ := Option.bind_eq_some_iff.mp hs
    exact h.polled hn (hflight rfl) hs
  · obtain ⟨response, -, rfl⟩ := Option.map_eq_some_iff.mp hs
    exact h.finishLoad (hflight rfl) _
  · obtain ⟨response, -, rfl⟩ := Option.map_eq_some_iff.mp hs
    exact h.finishCommand hn (Page.commanded_kept entries t.page response.body).2.1
  · obtain ⟨response, -, rfl⟩ := Option.map_eq_some_iff.mp hs
    exact h.finish (Or.inr rfl) fun hload => ⟨hload, rfl⟩
  · obtain rfl := Option.some.inj hs
    exact h.finishLoad (hflight rfl) _
  · obtain rfl := Option.some.inj hs
    exact h.finishLoad (hflight rfl) _
  · obtain rfl := Option.some.inj hs
    exact h.finishLoad (hflight rfl) _
  · obtain rfl := Option.some.inj hs
    exact h.finishCommand hn rfl
  · obtain rfl := Option.some.inj hs
    exact h.finish (Or.inr rfl) fun hload => ⟨hload, rfl⟩
  · exact absurd hs (by simp)

/-- **A button is pressed.** -/
theorem Single.press (h : t.Single) {route : Route} {r : ℕ}
    (hs : t.press rq route false r = some t') : t'.Single := by
  rw [Tab.press] at hs
  split at hs
  · split at hs <;> obtain rfl := Option.some.inj hs
    · exact ⟨h.command, fun r hr => ⟨rfl, (h.disabled r hr).2⟩, fun _ => rfl⟩
    · exact h
  · split at hs
    · next hpressed =>
      obtain ⟨t₁, hsend, rfl⟩ := Option.map_eq_some_iff.mp hs
      obtain ⟨-, rfl⟩ := send_eq_some hsend
      have henabled : t.page.buttonsEnabled = true := by simpa using hpressed
      have hnone := h.not_commanding' henabled
      have hidle := h.not_loading henabled
      -- the page is the same but for the buttons and the status
      have hpage : ∀ page : Page, page.buttonsEnabled = false →
          page.loadInFlight = t.page.loadInFlight →
          Single { t with
            page := page, tasks := t.tasks ++ [.commanding r], sent := r :: t.sent } :=
        fun page hdisabled hsame =>
          h.add (fun _ => ⟨hnone, hsame.trans hidle⟩) hdisabled (fun _ => hnone) _
      split
      · exact hpage _ rfl rfl
      · exact hpage _ rfl rfl
    · obtain rfl := Option.some.inj hs
      exact h

/-- **Every action of a careful user keeps it so.** -/
theorem Single.step (h : t.Single) (hc : t.Coherent entries False rq) {a : TabAction}
    (hcareful : t.Careful a) (hs : t.step entries ttl rq a = some t') : t'.Single := by
  cases a with
  | load txHash rpcUrl =>
    rw [Tab.step] at hs
    split at hs
    · obtain rfl := Option.some.inj hs
      exact h
    · split at hs <;> obtain rfl := Option.some.inj hs
      · exact h
      · exact h.add_other (rfl : PageTask.isCommand .creating = false) rfl (fun _ => hcareful)
          t.sent
  | press route byKey r =>
    rw [Tab.step] at hs
    split at hs
    · rw [show byKey = false from hcareful] at hs
      exact h.press hs
    · exact absurd hs (by simp)
  | abort r =>
    rw [Tab.step] at hs
    split at hs
    · obtain rfl := Option.some.inj hs
      exact h
    · split at hs
      · next henabled =>
        obtain ⟨t₁, hsend, rfl⟩ := Option.map_eq_some_iff.mp hs
        obtain ⟨-, rfl⟩ := send_eq_some hsend
        exact h.add_other (rfl : PageTask.isCommand (.aborting r) = false) rfl
          (fun _ => h.not_commanding' henabled) _
      · obtain rfl := Option.some.inj hs
        exact h
  | settle n arrival =>
    obtain ⟨task, hn, hs⟩ := Option.bind_eq_some_iff.mp hs
    exact h.settle hc hn hs
  | server a =>
    obtain ⟨server, -, rfl⟩ := Option.map_eq_some_iff.mp hs
    exact ⟨h.command, h.disabled, h.loading⟩

/-- When a session is opened, there is a load, and so no command. -/
theorem Single.orderly (h : t.Single) (hc : t.Coherent entries False rq) {a : TabAction}
    (hs : t.step entries ttl rq a = some t') : t.Orderly a := by
  rintro n place rfl
  obtain ⟨task, hn, hs⟩ := Option.bind_eq_some_iff.mp hs
  have hload : task.isLoad = true := by
    cases task with
    | creating | sleeping _ | polling _ _ | tracing _ _ _ => rfl
    | commanding _ | aborting _ => exact absurd hs (by simp [Tab.settle])
  exact h.not_commanding (hc.only_load hn hload).1

end Tab

/-- **One command at a time.** Whoever uses the buttons only, and loads no transaction while a
command is under way, gives one command at a time; while it is under way, the buttons are disabled;
and what is marked belongs to what is shown. -/
theorem one_command_at_a_time
    {entries : StorageChanges → List (String × List (String × String))} {ttl : ℕ}
    {rq : ℕ → Request} {actions : List TabAction} {t : Tab}
    (hcareful : Runs.Along (Tab.step entries ttl rq) Tab.Careful .init actions)
    (h : Runs.run (Tab.step entries ttl rq) .init actions = some t) :
    t.tasks.countP PageTask.isCommand ≤ 1 ∧
      (∀ r, .commanding r ∈ t.tasks → t.page.buttonsEnabled = false) ∧ t.Together entries := by
  have hstep : ∀ (t : Tab) (a : TabAction) (t' : Tab),
      t.Coherent entries False rq ∧ t.Single → t.Careful a → t.step entries ttl rq a = some t' →
        t'.Coherent entries False rq ∧ t'.Single := fun t a t' hs hcareful hstep =>
    ⟨hs.1.step (fun hfalse => hfalse.elim) hstep, hs.2.step hs.1 hcareful hstep⟩
  have hinit : (Tab.init.Coherent entries False rq) ∧ Tab.init.Single :=
    ⟨Tab.coherent_init, Tab.single_init⟩
  have hsingle := (Runs.run_invariant_along hstep hinit hcareful h).2
  have horderly : Runs.Along (Tab.step entries ttl rq) Tab.Orderly .init actions :=
    Runs.along_of_along hstep (fun t a t' hs _ hstep => hs.2.orderly hs.1 hstep) hinit hcareful h
  exact ⟨hsingle.command, fun r hr => (hsingle.disabled r hr).1,
    (Tab.coherent_of_run (fun _ : True => horderly) h).together⟩

theorem one_command_openAndStep :
    ∃ t, Runs.run (Tab.step (fun _ => []) 1800 pageRequests) .init (openAndStep.take 4) = some t ∧
      t.tasks.countP PageTask.isCommand = 1 ∧ t.page.buttonsEnabled = false := by
  have hcareful : Runs.Along (Tab.step (fun _ => []) 1800 pageRequests) Tab.Careful .init
      (openAndStep.take 4) := by
    refine (Runs.along_cons rfl).mpr ⟨trivial, ?_⟩
    refine (Runs.along_cons rfl).mpr ⟨fun _ => List.not_mem_nil, Runs.along_of_forall ?_⟩
    intro a ha t
    rcases List.mem_cons.mp ha with rfl | ha
    · exact trivial
    · obtain rfl := List.mem_singleton.mp ha
      exact rfl
  obtain ⟨t, ht, htasks⟩ : ∃ t, Runs.run (Tab.step (fun _ => []) 1800 pageRequests) .init
      (openAndStep.take 4) = some t ∧ t.tasks = [.commanding 0] := ⟨_, rfl, rfl⟩
  obtain ⟨-, hdisabled, -⟩ := one_command_at_a_time hcareful ht
  have hcommanding : .commanding 0 ∈ t.tasks := htasks ▸ List.mem_singleton_self _
  exact ⟨t, ht, htasks ▸ rfl, hdisabled 0 hcommanding⟩

end EvmDebugger

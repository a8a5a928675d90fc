import EnerSentry.Business.SessionSafety

/-!
How often a password can be guessed. A failed login is counted and every fifth one bars the
name, so in the time of one bar at most five wrong passwords are checked by logins, wherever
that time begins; but the screen lock checks a password of the same user without counting.
-/

namespace EnerSentry.Business
open EnerSentry.Lib EnerSentry.Lib.Runs

namespace AuthManager
variable (sha256Hex : ByteArray → String) (name : String) (start : Nat)

/-- An unlock of a user's locked session, and the result of the check. -/
def checkedUnlock (v : AuthManager × AuthEvent) : Option Bool :=
  match v.2.call with
  | .unlock password =>
      if v.1.loggedIn = true ∧ v.1.locked = true ∧ v.1.currentUser = name then
        some (v.1.verifies sha256Hex name password)
      else none
  | _ => none

/-- The half-open interval of the length of a bar. -/
def Within (v : AuthManager × AuthEvent) : Prop := start ≤ v.2.nowMs ∧ v.2.nowMs < start + kLockMs

instance : DecidablePred (Within start) := fun _ => inferInstanceAs (Decidable (_ ∧ _))

/-- A wrong password of a login that is checked against the stored one. -/
def WrongLogin (v : AuthManager × AuthEvent) : Prop :=
  checkedLogin sha256Hex name v = some false ∧ (v.1.findUser name).isSome = true

/-- A wrong password of an unlock that is checked against the stored one. -/
def WrongUnlock (v : AuthManager × AuthEvent) : Prop :=
  checkedUnlock sha256Hex name v = some false ∧ (v.1.findUser name).isSome = true

instance : DecidablePred (WrongLogin sha256Hex name) := fun _ => inferInstanceAs (Decidable (_ ∧ _))

instance : DecidablePred (WrongUnlock sha256Hex name) := fun _ => inferInstanceAs (Decidable (_ ∧ _))

/-- A login or an unlock that is accepted. -/
def Accepted (v : AuthManager × AuthEvent) : Prop :=
  checkedLogin sha256Hex name v = some true ∨ checkedUnlock sha256Hex name v = some true

instance : DecidablePred (Accepted sha256Hex name) := fun _ => inferInstanceAs (Decidable (_ ∨ _))

/-- How many visits of the interval are of a kind. -/
def countWithin (p : AuthManager × AuthEvent → Prop) [DecidablePred p] (vs : List (AuthManager × AuthEvent)) : Nat :=
  vs.countP (fun v => Within start v ∧ p v)

section Logins
variable {sha256Hex} {name} {start} {es : List AuthEvent} {m : AuthManager} {e : AuthEvent}
  {vs : List (AuthManager × AuthEvent)}

theorem countWithin_concat (p : AuthManager × AuthEvent → Prop) [DecidablePred p] (v : AuthManager × AuthEvent) :
    countWithin start p (vs ++ [v]) = countWithin start p vs + if Within start v ∧ p v then 1 else 0 := by
  unfold countWithin
  rw [List.countP_append, List.countP_singleton]
  simp only [decide_eq_true_eq]

theorem countWithin_early (p : AuthManager × AuthEvent → Prop) [DecidablePred p]
    (early : ∀ v ∈ vs, v.2.nowMs < start) : countWithin start p vs = 0 := by
  rw [countWithin, List.countP_eq_zero]
  intro v member inside
  have within := (of_decide_eq_true inside).1.1
  exact absurd (early v member) (Nat.not_lt.mpr within)

/-- The failed logins of an interval against the record of the name: the record counts them all, or bars
the name to the end of the interval, or the interval is over. -/
structure Budget (sha256Hex : ByteArray → String) (name : String) (start : Nat) (vs : List (AuthManager × AuthEvent))
    (m : AuthManager) (now : Nat) : Prop where
  small : ((m.fails name).getD {}).count < kMaxLoginFails
  most : countWithin start (fun v => checkedLogin sha256Hex name v = some false) vs ≤ kMaxLoginFails
  left : countWithin start (fun v => checkedLogin sha256Hex name v = some false) vs ≤ ((m.fails name).getD {}).count ∨
    (∃ f, m.fails name = some f ∧ start + kLockMs ≤ f.lockUntilMs) ∨ start + kLockMs ≤ now

theorem Budget.later {now now' : Nat} (budget : Budget sha256Hex name start vs m now) (le : now ≤ now') :
    Budget sha256Hex name start vs m now' :=
  { budget with left := budget.left.imp_right (fun rest => rest.imp_right (fun ended => ended.trans le)) }

/-- In the interval a checked login finds all failed ones on the record. -/
theorem Budget.counted {passed : Bool} (budget : Budget sha256Hex name start vs m e.nowMs)
    (checked : checkedLogin sha256Hex name (m, e) = some passed) (within : Within start (m, e)) :
    countWithin start (fun v => checkedLogin sha256Hex name v = some false) vs ≤ ((m.fails name).getD {}).count := by
  have free := checkedLogin_free checked
  rcases budget.left with counted | ⟨f, present, bars⟩ | ended
  · exact counted
  · simp only [barred, present, decide_eq_false_iff_not, Nat.not_lt] at free
    exact absurd within.2 (Nat.not_lt.mpr (bars.trans free))
  · exact absurd within.2 (Nat.not_lt.mpr ended)

section Step
variable (budget : Budget sha256Hex name start vs m e.nowMs)
include budget

theorem Budget.unchecked (checked : checkedLogin sha256Hex name (m, e) = none) :
    Budget sha256Hex name start (vs ++ [(m, e)]) (AuthManager.step sha256Hex m e).1 e.nowMs := by
  have fails := fails_step sha256Hex m e name
  rw [checked] at fails
  have counts : countWithin start (fun v => checkedLogin sha256Hex name v = some false) (vs ++ [(m, e)]) =
      countWithin start (fun v => checkedLogin sha256Hex name v = some false) vs := by
    rw [countWithin_concat, if_neg (fun both => by rw [checked] at both; cases both.2), Nat.add_zero]
  refine ⟨?_, ?_, ?_⟩
  · rw [fails]
    exact budget.small
  · rw [counts]
    exact budget.most
  · rw [counts, fails]
    exact budget.left

/-- A failed login of the interval is still on the record when the next one is checked. -/
theorem Budget.most_failed (checked : checkedLogin sha256Hex name (m, e) = some false) :
    countWithin start (fun v => checkedLogin sha256Hex name v = some false) (vs ++ [(m, e)]) ≤ kMaxLoginFails := by
  rw [countWithin_concat]
  by_cases within : Within start (m, e)
  · rw [if_pos ⟨within, checked⟩]
    exact (budget.counted checked within).trans_lt budget.small
  · rw [if_neg (fun both => within both.1)]
    exact budget.most

variable (ordered : ∀ v ∈ vs, v.2.nowMs ≤ e.nowMs)
include ordered

/-- A login with the password empties the record, so it must not fall into the interval. -/
theorem Budget.passed (checked : checkedLogin sha256Hex name (m, e) = some true) (alone : ¬Within start (m, e)) :
    Budget sha256Hex name start (vs ++ [(m, e)]) (AuthManager.step sha256Hex m e).1 e.nowMs := by
  have fails := fails_step sha256Hex m e name
  rw [checked] at fails
  have counts : countWithin start (fun v => checkedLogin sha256Hex name v = some false) (vs ++ [(m, e)]) =
      countWithin start (fun v => checkedLogin sha256Hex name v = some false) vs := by
    rw [countWithin_concat, if_neg (fun both => alone both.1), Nat.add_zero]
  refine ⟨?_, ?_, ?_⟩
  · rw [fails]
    exact (show 0 < kMaxLoginFails by decide)
  · rw [counts]
    exact budget.most
  · rw [counts]
    by_cases early : e.nowMs < start
    · rw [countWithin_early _ (fun v member => (ordered v member).trans_lt early)]
      exact Or.inl (Nat.zero_le _)
    · exact Or.inr (Or.inr (Nat.not_lt.mp (fun inside => alone ⟨Nat.not_lt.mp early, inside⟩)))

/-- The failed login that fills the record bars the name to the end of every interval that has begun. -/
theorem Budget.filled (checked : checkedLogin sha256Hex name (m, e) = some false)
    (full : kMaxLoginFails ≤ ((m.fails name).getD {}).count + 1) :
    Budget sha256Hex name start (vs ++ [(m, e)]) (AuthManager.step sha256Hex m e).1 e.nowMs := by
  have fails := fails_step sha256Hex m e name
  have next : countFail ((m.fails name).getD {}) e.nowMs = { count := 0, lockUntilMs := e.nowMs + kLockMs } :=
    if_pos full
  rw [checked] at fails
  simp only [next] at fails
  refine ⟨?_, budget.most_failed checked, ?_⟩
  · rw [fails]
    exact (show 0 < kMaxLoginFails by decide)
  · by_cases early : e.nowMs < start
    · rw [countWithin_concat, countWithin_early _ (fun v member => (ordered v member).trans_lt early),
        if_neg (fun both => absurd both.1.1 (Nat.not_le.mpr early))]
      exact Or.inl (Nat.zero_le _)
    · exact Or.inr (Or.inl ⟨_, fails, Nat.add_le_add_right (Nat.not_lt.mp early) _⟩)

/-- Any other failed login is counted in the interval and on the record. -/
theorem Budget.failed (checked : checkedLogin sha256Hex name (m, e) = some false)
    (room : ¬kMaxLoginFails ≤ ((m.fails name).getD {}).count + 1) :
    Budget sha256Hex name start (vs ++ [(m, e)]) (AuthManager.step sha256Hex m e).1 e.nowMs := by
  have fails := fails_step sha256Hex m e name
  have next : countFail ((m.fails name).getD {}) e.nowMs =
      { (m.fails name).getD {} with count := ((m.fails name).getD {}).count + 1 } := if_neg room
  rw [checked] at fails
  simp only [next] at fails
  have count : (((AuthManager.step sha256Hex m e).1.fails name).getD {}).count =
      ((m.fails name).getD {}).count + 1 := by rw [fails]; rfl
  refine ⟨?_, budget.most_failed checked, ?_⟩
  · rw [count]
    exact Nat.not_le.mp room
  · rw [countWithin_concat, count]
    by_cases within : Within start (m, e)
    · rw [if_pos ⟨within, checked⟩]
      exact Or.inl (Nat.succ_le_succ (budget.counted checked within))
    · rw [if_neg (fun both => within both.1)]
      by_cases early : e.nowMs < start
      · rw [countWithin_early _ (fun v member => (ordered v member).trans_lt early)]
        exact Or.inl (Nat.zero_le _)
      · exact Or.inr (Or.inr (Nat.not_lt.mp (fun inside => within ⟨Nat.not_lt.mp early, inside⟩)))

theorem Budget.step (alone : Within start (m, e) → checkedLogin sha256Hex name (m, e) ≠ some true) :
    Budget sha256Hex name start (vs ++ [(m, e)]) (AuthManager.step sha256Hex m e).1 e.nowMs := by
  cases checked : checkedLogin sha256Hex name (m, e) with
  | none => exact budget.unchecked checked
  | some passed =>
    cases passed with
    | true => exact budget.passed ordered checked (fun within => alone within checked)
    | false =>
      by_cases full : kMaxLoginFails ≤ ((m.fails name).getD {}).count + 1
      · exact budget.filled ordered checked full
      · exact budget.failed ordered checked full

end Step

theorem visit_nowMs {v : AuthManager × AuthEvent} {s : AuthManager} {now : Nat} (latest : ∀ e ∈ es, e.nowMs ≤ now)
    (visited : v ∈ visits (AuthManager.step sha256Hex) s es) : v.2.nowMs ≤ now := by
  apply latest
  rw [← visits_map_snd (AuthManager.step sha256Hex) s es]
  exact List.mem_map_of_mem visited

theorem budget_run (ordered : es.Pairwise (fun e f => e.nowMs ≤ f.nowMs)) {now : Nat}
    (latest : ∀ e ∈ es, e.nowMs ≤ now)
    (alone : ∀ v ∈ visits (AuthManager.step sha256Hex) {} es, Within start v →
      checkedLogin sha256Hex name v ≠ some true) :
    Budget sha256Hex name start (visits (AuthManager.step sha256Hex) {} es) (run (AuthManager.step sha256Hex) {} es)
      now := by
  induction es using List.reverseRecOn generalizing now with
  | nil => exact ⟨show 0 < kMaxLoginFails by decide, Nat.zero_le _, Or.inl (Nat.zero_le _)⟩
  | append_singleton es e ih =>
    obtain ⟨past, earlier⟩ := ordered_concat ordered
    rw [visits_concat] at alone ⊢
    rw [run_concat]
    have budget := ih past earlier (fun v member => alone v (List.mem_append_left _ member))
    have next := budget.step (fun v member => visit_nowMs earlier member)
      (alone _ (List.mem_append_right _ (List.mem_singleton.mpr rfl)))
    exact next.later (latest e (List.mem_append_right _ (List.mem_singleton.mpr rfl)))

end Logins

section Guesses
variable {sha256Hex} {name} {start} {es : List AuthEvent}

/-- The wrong passwords of an interval that logins check are five at most. -/
theorem wrongLogins_le (ordered : es.Pairwise (fun e f => e.nowMs ≤ f.nowMs))
    (alone : ∀ v ∈ visits (AuthManager.step sha256Hex) {} es, Within start v → ¬Accepted sha256Hex name v) :
    countWithin start (WrongLogin sha256Hex name) (visits (AuthManager.step sha256Hex) {} es) ≤ kMaxLoginFails := by
  obtain ⟨now, latest⟩ : ∃ now, ∀ e ∈ es, e.nowMs ≤ now := by
    rcases List.eq_nil_or_concat es with rfl | ⟨past, last, rfl⟩
    · exact ⟨0, fun e member => absurd member List.not_mem_nil⟩
    · rw [List.concat_eq_append] at ordered ⊢
      refine ⟨last.nowMs, fun e member => ?_⟩
      rcases List.mem_append.mp member with earlier | same
      · exact (ordered_concat ordered).2 e earlier
      · rw [List.mem_singleton.mp same]
  have budget : Budget sha256Hex name start _ _ now :=
    budget_run ordered latest (fun v member within accepted => alone v member within (Or.inl accepted))
  apply le_trans _ budget.most
  apply List.countP_mono_left
  intro v _ wrong
  obtain ⟨within, failed, -⟩ := of_decide_eq_true wrong
  exact decide_eq_true ⟨within, failed⟩

/-- A checked unlock is no login. -/
theorem checkedLogin_of_unlock {v : AuthManager × AuthEvent} {passed : Bool}
    (unlock : checkedUnlock sha256Hex name v = some passed) : checkedLogin sha256Hex name v = none := by
  unfold checkedUnlock at unlock
  unfold checkedLogin
  split at unlock
  · rename_i call
    rw [call]
  · cases unlock

theorem not_accepted {v : AuthManager × AuthEvent} (wrong : WrongUnlock sha256Hex name v) :
    ¬Accepted sha256Hex name v := by
  have refused := wrong.1
  rintro (login | unlock)
  · rw [checkedLogin_of_unlock refused] at login
    cases login
  · rw [refused] at unlock
    cases unlock

/-- A refused unlock writes to the audit log and to nothing else, so the next password can be tried. -/
theorem wrongUnlock_step {m : AuthManager} {e : AuthEvent} (wrong : WrongUnlock sha256Hex name (m, e)) :
    WrongUnlock sha256Hex name ((step sha256Hex m e).1, e) := by
  obtain ⟨refused, known⟩ := wrong
  have again := refused
  obtain ⟨nowMs, call⟩ := e
  cases call with
  | unlock password =>
    simp only [checkedUnlock] at refused
    split at refused
    · rename_i own
      have unverified : m.verifies sha256Hex m.currentUser password = false := by
        rw [own.2.2]
        exact Option.some.inj refused
      have next : (step sha256Hex m ⟨nowMs, .unlock password⟩).1 =
          m.appendAudit nowMs m.currentUser "unlock" "rejected" false := by
        simp [step, unlock, own.1, own.2.1, unverified]
      rw [next]
      exact ⟨again, known⟩
    · cases refused
  | _ => cases refused

/-- A refused unlock in the interval can be repeated, and each time a wrong password is checked. -/
theorem repeated_unlock {e : AuthEvent} (wrong : WrongUnlock sha256Hex name (run (step sha256Hex) {} es, e))
    (within : Within start (run (step sha256Hex) {} es, e)) (n : Nat) :
    WrongUnlock sha256Hex name (run (step sha256Hex) {} (es ++ List.replicate n e), e) ∧
      n ≤ countWithin start (fun v => WrongLogin sha256Hex name v ∨ WrongUnlock sha256Hex name v)
        (visits (step sha256Hex) {} (es ++ List.replicate n e)) ∧
      ((∀ v ∈ visits (step sha256Hex) {} es, Within start v → ¬Accepted sha256Hex name v) →
        ∀ v ∈ visits (step sha256Hex) {} (es ++ List.replicate n e), Within start v → ¬Accepted sha256Hex name v) := by
  induction n with
  | zero =>
    rw [List.replicate_zero, List.append_nil]
    exact ⟨wrong, Nat.zero_le _, id⟩
  | succ n ih =>
    obtain ⟨still, count, alone⟩ := ih
    rw [List.replicate_succ', ← List.append_assoc, run_concat, visits_concat, countWithin_concat]
    refine ⟨wrongUnlock_step still, ?_, fun before v member => ?_⟩
    · rw [if_pos ⟨within, Or.inr still⟩]
      exact Nat.succ_le_succ count
    · rcases List.mem_append.mp member with earlier | last
      · exact alone before v earlier
      · rw [List.mem_singleton.mp last]
        exact fun _ => not_accepted still

/-- In an interval without an accepted login or unlock of a user at most five wrong passwords are checked
against the user's stored one, as long as no unlock is among them; and wherever one is, there is no bound,
since it can be repeated. -/
theorem guess_budget_kept (ordered : es.Pairwise (fun e f => e.nowMs ≤ f.nowMs)) (name : String) (start : Nat)
    (alone : ∀ v ∈ visits (step sha256Hex) {} es, Within start v → ¬Accepted sha256Hex name v) :
    ((∀ v ∈ visits (step sha256Hex) {} es, Within start v → ¬WrongUnlock sha256Hex name v) →
      countWithin start (fun v => WrongLogin sha256Hex name v ∨ WrongUnlock sha256Hex name v)
        (visits (step sha256Hex) {} es) ≤ kMaxLoginFails) ∧
    ∀ e, Within start (run (step sha256Hex) {} es, e) → WrongUnlock sha256Hex name (run (step sha256Hex) {} es, e) →
      ∀ n, (∀ v ∈ visits (step sha256Hex) {} (es ++ List.replicate n e), Within start v →
          ¬Accepted sha256Hex name v) ∧
        n ≤ countWithin start (fun v => WrongLogin sha256Hex name v ∨ WrongUnlock sha256Hex name v)
          (visits (step sha256Hex) {} (es ++ List.replicate n e)) := by
  constructor
  · intro spared
    refine le_trans (List.countP_mono_left ?_) (wrongLogins_le ordered alone)
    intro v member inside
    obtain ⟨within, login | unlock⟩ := of_decide_eq_true inside
    · exact decide_eq_true ⟨within, login⟩
    · exact absurd unlock (spared v member within)
  · intro e within wrong n
    obtain ⟨-, count, accepted⟩ := repeated_unlock wrong within n
    exact ⟨accepted alone, count⟩

/-- Somebody who does not know the password tries three at the login. -/
def mistyped : List AuthEvent :=
  [⟨0, .loadUsersFromJson (some [⟨some "eng", some "volt", some "Engineer", none⟩])⟩] ++
    ["a", "b", "c"].map (fun password => ⟨1000, .login "eng" password⟩)

theorem guess_budget_kept_mistyped :
    countWithin 1000 (fun v => WrongLogin (fun _ => "") "eng" v ∨ WrongUnlock (fun _ => "") "eng" v)
      (visits (step (fun _ => "")) {} mistyped) ≤ kMaxLoginFails :=
  (guess_budget_kept (by decide) "eng" 1000 (by decide +kernel)).1 (by decide +kernel)

/-- A user logs in and locks the screen, and somebody else tries six passwords. -/
def guessing : List AuthEvent :=
  [⟨0, .loadUsersFromJson (some [⟨some "eng", some "volt", some "Engineer", none⟩])⟩, ⟨1000, .login "eng" "volt"⟩,
    ⟨2000, .lock⟩] ++ ["a", "b", "c", "d", "e", "f"].map (fun password => ⟨3000, .unlock password⟩)

/-- Six wrong passwords are checked at one time. -/
theorem guess_budget_fails :
    (∀ v ∈ visits (step (fun _ => "")) {} guessing, Within 3000 v → ¬Accepted (fun _ => "") "eng" v) ∧
      ¬countWithin 3000 (fun v => WrongLogin (fun _ => "") "eng" v ∨ WrongUnlock (fun _ => "") "eng" v)
          (visits (step (fun _ => "")) {} guessing) ≤ kMaxLoginFails := by
  constructor
  · decide +kernel
  · decide +kernel

end Guesses

end AuthManager
end EnerSentry.Business

import BitPark.StoredValue

namespace BitPark.Balance

open BitPark.Effect BitPark.Server BitPark.Database BitPark.Charging BitPark.Members BitPark.StoredValue
open BitPark.RemainMoney

/-! Settlements of one member that run at the same time. Of the statements a
settlement consists of, two touch the member: the query of `ChargeFactory::Create`
and the last one, `UpdateStoredValue`. -/

inductive Phase where
  | idle
  | holding (vip : VIPVehicle)
  | settled (feeExemption : ℚ)
  | failed

def Phase.exemption : Phase → ℚ
  | settled feeExemption => feeExemption
  | _ => 0

structure Settling (ι : Type) where
  world : World
  phase : ι → Phase

inductive Event (ι : Type) where
  | read (i : ι)
  | update (i : ι)
  | fail (i : ι)
  | other

section Interleaving

variable {ι : Type} [DecidableEq ι] (like : List UInt8 → String → Bool) (plate : String) (fee : ι → ℚ)

/-- One statement. The other ones, of any settlement, leave the members alone. -/
inductive Step : Event ι → Settling ι → Settling ι → Prop where
  | read (s : Settling ι) (i : ι) (vip : VIPVehicle) (hp : s.phase i = .idle)
      (hc : choiceOf like s.world plate = .ok (.storedValue, vip)) :
      Step (.read i) s { s with phase := Function.update s.phase i (.holding vip) }
  | update (s : Settling ι) (i : ι) (vip : VIPVehicle) (hp : s.phase i = .holding vip) :
      Step (.update i) s
        { world := debited vip.id (written (leftMoney vip.remainMoney (fee i))) s.world
          phase := Function.update s.phase i (.settled (feeExemption vip.remainMoney (fee i))) }
  | fail (s : Settling ι) (i : ι) (hp : s.phase i = .idle ∨ ∃ vip, s.phase i = .holding vip) :
      Step (.fail i) s { s with phase := Function.update s.phase i .failed }
  | other (s : Settling ι) (w : World) (hv : w.vips = s.world.vips) (hc : w.config = s.world.config) :
      Step .other s { s with world := w }

inductive Exec : Settling ι → List (Event ι) → Settling ι → Prop where
  | nil (s : Settling ι) : Exec s [] s
  | snoc (s t u : Settling ι) (es : List (Event ι)) (e : Event ι) (h : Exec s es t)
      (he : Step like plate fee e t u) : Exec s (es ++ [e]) u

end Interleaving

/-- No balance is written between the moment a settlement reads the member and
the moment it writes the balance. -/
def Undisturbed {ι : Type} (es : List (Event ι)) : Prop :=
  ∀ before between after i j, es = before ++ .read i :: (between ++ .update i :: after) → .update j ∉ between

def updates {ι : Type} (es : List (Event ι)) : List ι :=
  es.filterMap fun e => match e with
    | .update i => some i
    | _ => none

theorem undisturbed_init {ι : Type} (es : List (Event ι)) (e : Event ι) (h : Undisturbed (es ++ [e])) :
    Undisturbed es := by
  intro before between after i j hes
  refine h before between (after ++ [e]) i j ?_
  rw [hes]
  simp

theorem updates_append {ι : Type} (es : List (Event ι)) (e : Event ι) :
    updates (es ++ [e]) = updates es ++ updates [e] :=
  List.filterMap_append

theorem holding_update {ι : Type} [DecidableEq ι] (phase : ι → Phase) (i k : ι) (p : Phase) (x : VIPVehicle)
    (h : Function.update phase i p k = .holding x) : k = i ∧ p = .holding x ∨ phase k = .holding x := by
  by_cases hk : k = i
  · rw [hk, Function.update_self] at h
    exact .inl ⟨hk, h⟩
  · rw [Function.update_of_ne hk] at h
    exact .inr h

section Conservation

variable {ι : Type} [DecidableEq ι] [Fintype ι] (like : List UInt8 → String → Bool) (plate : String) (fee : ι → ℚ)

def withMoney (row : VIPVehicle) (money : ℚ) : VIPVehicle := { row with remainMoney := money }

/-- The balance after settlements one after the other, and what their bills report. -/
def inTurn (is : List ι) (money : ℚ) : ℚ := is.foldl (fun b i => debit (fee i) b) money

def exemptions : List ι → ℚ → ℚ
  | [], _ => 0
  | i :: is, money => feeExemption (toFloat money) (fee i) + exemptions is (debit (fee i) money)

omit [DecidableEq ι] [Fintype ι] in
theorem inTurn_append (is : List ι) (i : ι) (money : ℚ) :
    inTurn fee (is ++ [i]) money = debit (fee i) (inTurn fee is money) := List.foldl_append

omit [DecidableEq ι] [Fintype ι] in
theorem exemptions_append (is : List ι) (i : ι) (money : ℚ) : exemptions fee (is ++ [i]) money =
    exemptions fee is money + feeExemption (toFloat (inTurn fee is money)) (fee i) := by
  induction is generalizing money with
  | nil => simp [exemptions, inTurn]
  | cons j is ih =>
    rw [List.cons_append, exemptions, exemptions, ih, add_assoc]
    rfl

/-- Every balance of the settlements one after the other is kept. -/
def KeptInTurn (is : List ι) (money : ℚ) : Prop := ∀ js, js <+: is → Kept (js.foldl (fun b i => leftMoney b (fee i)) money)

omit [DecidableEq ι] [Fintype ι] in
theorem keptInTurn_natCast (fee : ι → ℕ) (is : List ι) (money : ℕ) (h : money < 10 ^ 6) :
    KeptInTurn (fun i => (fee i : ℚ)) is money := by
  rintro js -
  induction js generalizing money with
  | nil => exact kept_natCast money h
  | cons i js ih =>
    rw [List.foldl_cons, leftMoney_natCast]
    exact ih (money - fee i) (by omega)

omit [DecidableEq ι] [Fintype ι] in
/-- Of balances that are kept the bills report what was taken. -/
theorem sub_inTurn (is : List ι) (money : ℚ) (h : KeptInTurn fee is money) :
    money - inTurn fee is money = exemptions fee is money ∧
      inTurn fee is money = is.foldl (fun b i => leftMoney b (fee i)) money := by
  induction is generalizing money with
  | nil => exact ⟨sub_self money, rfl⟩
  | cons i is ih =>
    have hfirst : debit (fee i) money = leftMoney money (fee i) :=
      debit_of_kept money (fee i) (h [] List.nil_prefix) (h [i] ⟨is, rfl⟩)
    have hrest : KeptInTurn fee is (leftMoney money (fee i)) := by
      intro js hjs
      exact h (i :: js) ((List.prefix_cons_inj i).mpr hjs)
    obtain ⟨hsum, hturn⟩ := ih _ hrest
    have hstep : inTurn fee (i :: is) money = inTurn fee is (leftMoney money (fee i)) :=
      congrArg (inTurn fee is) hfirst
    have hread : toFloat money = money := (h [] List.nil_prefix).1
    rw [hstep, exemptions, hfirst, ← hsum, hread, ← sub_leftMoney]
    exact ⟨by ring, hturn⟩

/-- The state after an undisturbed run: the balance is that of the updates one
after the other, and who holds an old balance has been overtaken by an update. -/
structure Consistent (row : VIPVehicle) (es : List (Event ι)) (s : Settling ι) (money : ℚ) : Prop where
  stored : withMoney row money ∈ s.world.vips
  member : choiceOf like s.world plate = .ok (.storedValue, handleQueryVipVehicle (withMoney row money))
  sequential : money = inTurn fee (updates es) row.remainMoney
  reported : ∑ i, (s.phase i).exemption = exemptions fee (updates es) row.remainMoney
  held : ∀ i v, s.phase i = .holding v → ∃ m before since, v = handleQueryVipVehicle (withMoney row m) ∧
    es = before ++ .read i :: since ∧ (m = money ∨ ∃ j, .update j ∈ since)

variable {like plate fee} {row : VIPVehicle} {es : List (Event ι)} {s : Settling ι} {money : ℚ}

omit [DecidableEq ι] in
/-- Whoever holds a balance still does after an event of somebody else. -/
theorem held_append (h : Consistent like plate fee row es s money) (e : Event ι) (i : ι) (v : VIPVehicle)
    (hv : s.phase i = .holding v) : ∃ m before since, v = handleQueryVipVehicle (withMoney row m) ∧
      es ++ [e] = before ++ .read i :: since ∧ (m = money ∨ ∃ j, .update j ∈ since) := by
  obtain ⟨m, before, since, hm, hes, hor⟩ := h.held i v hv
  refine ⟨m, before, since ++ [e], hm, by rw [hes]; simp, hor.imp_right ?_⟩
  rintro ⟨j, hj⟩
  exact ⟨j, List.mem_append_left _ hj⟩

theorem sum_exemption_update (phase : ι → Phase) (i : ι) (p : Phase) (hp : (phase i).exemption = 0) :
    ∑ k, (Function.update phase i p k).exemption = (∑ k, (phase k).exemption) + p.exemption := by
  have hcomp : (fun k => (Function.update phase i p k).exemption) =
      Function.update (fun k => (phase k).exemption) i p.exemption := by
    funext k
    by_cases hk : k = i
    · rw [hk, Function.update_self, Function.update_self]
    · rw [Function.update_of_ne hk, Function.update_of_ne hk]
  have hrest := Finset.sum_update_of_mem (Finset.mem_univ i) (fun k => (phase k).exemption) p.exemption
  have hall := Finset.sum_update_of_mem (Finset.mem_univ i) (fun k => (phase k).exemption) 0
  have hsame : Function.update (fun k => (phase k).exemption) i 0 = fun k => (phase k).exemption :=
    Function.update_eq_self_iff.mpr hp.symm
  rw [hsame] at hall
  rw [hcomp, hrest, hall]
  ring

theorem consistent_read (h : Consistent like plate fee row es s money) (i : ι) (v : VIPVehicle)
    (hp : s.phase i = .idle) (hc : choiceOf like s.world plate = .ok (.storedValue, v)) :
    Consistent like plate fee row (es ++ [.read i])
      { s with phase := Function.update s.phase i (.holding v) } money := by
  have hv : v = handleQueryVipVehicle (withMoney row money) := by
    have hm := h.member
    rw [hc] at hm
    simpa using hm
  refine ⟨h.stored, h.member, ?_, ?_, ?_⟩
  · rw [h.sequential, updates_append]
    simp [updates]
  · rw [sum_exemption_update _ _ _ (by rw [hp]; rfl), h.reported, updates_append]
    simp [updates, Phase.exemption]
  · intro k x hx
    obtain ⟨rfl, hnew⟩ | hold := holding_update s.phase i k _ x hx
    · cases hnew
      exact ⟨money, es, [], hv, rfl, .inl rfl⟩
    · exact held_append h _ k x hold

theorem consistent_update (h : Consistent like plate fee row es s money) (i : ι) (v : VIPVehicle)
    (hp : s.phase i = .holding v) (hu : Undisturbed (es ++ [.update i])) :
    Consistent like plate fee row (es ++ [.update i])
      { world := debited v.id (written (leftMoney v.remainMoney (fee i))) s.world
        phase := Function.update s.phase i (.settled (feeExemption v.remainMoney (fee i))) }
      (debit (fee i) money) := by
  obtain ⟨m, before, since, rfl, hes, hor⟩ := h.held i v hp
  -- nobody has written since this settlement read the member
  obtain rfl : m = money := by
    refine hor.resolve_right ?_
    rintro ⟨j, hj⟩
    exact hu before since [] i j (by rw [hes]; simp) hj
  obtain ⟨hstored, hmember⟩ := choiceOf_row like s.world plate (withMoney row m) (debit (fee i) m) h.stored h.member
  have hlast : updates [Event.update i] = [i] := rfl
  refine ⟨hstored, hmember, ?_, ?_, ?_⟩
  · rw [updates_append, hlast, inTurn_append, ← h.sequential]
  · rw [sum_exemption_update _ _ _ (by rw [hp]; rfl), h.reported, updates_append, hlast, exemptions_append,
      ← h.sequential]
    rfl
  · intro k x hx
    obtain ⟨-, hnew⟩ | hold := holding_update s.phase i k _ x hx
    · cases hnew
    · obtain ⟨m', before', since', hx', hes', -⟩ := h.held k x hold
      exact ⟨m', before', since' ++ [.update i], hx', by rw [hes']; simp, .inr ⟨i, by simp⟩⟩

theorem consistent_fail (h : Consistent like plate fee row es s money) (i : ι)
    (hp : s.phase i = .idle ∨ ∃ v, s.phase i = .holding v) :
    Consistent like plate fee row (es ++ [.fail i]) { s with phase := Function.update s.phase i .failed } money := by
  have hzero : (s.phase i).exemption = 0 := by
    obtain hp | ⟨v, hp⟩ := hp
    · rw [hp]
      rfl
    · rw [hp]
      rfl
  refine ⟨h.stored, h.member, ?_, ?_, ?_⟩
  · rw [h.sequential, updates_append]
    simp [updates]
  · rw [sum_exemption_update _ _ _ hzero, h.reported, updates_append]
    simp [updates, Phase.exemption]
  · intro k x hx
    obtain ⟨-, hnew⟩ | hold := holding_update s.phase i k _ x hx
    · cases hnew
    · exact held_append h _ k x hold

omit [DecidableEq ι] in
theorem consistent_other (h : Consistent like plate fee row es s money) (w : World)
    (hv : w.vips = s.world.vips) (hc : w.config = s.world.config) :
    Consistent like plate fee row (es ++ [.other]) { s with world := w } money := by
  refine ⟨?_, ?_, ?_, ?_, fun k x hx => held_append h _ k x hx⟩
  · rw [hv]
    exact h.stored
  · rw [← h.member]
    unfold choiceOf vipOf
    rw [hv, hc]
  · rw [h.sequential, updates_append]
    simp [updates]
  · rw [h.reported, updates_append]
    simp [updates]

theorem consistent_exec {t : Settling ι} (he : Exec like plate fee s es t) (hi : ∀ i, s.phase i = .idle)
    (hrow : row ∈ s.world.vips) (hm : choiceOf like s.world plate = .ok (.storedValue, handleQueryVipVehicle row))
    (hu : Undisturbed es) : ∃ money, Consistent like plate fee row es t money := by
  induction he with
  | nil =>
    refine ⟨row.remainMoney, hrow, hm, rfl, ?_, fun i v hv => ?_⟩
    · simp [hi, Phase.exemption, updates, exemptions]
    · rw [hi i] at hv
      cases hv
  | snoc t u es e h hstep ih =>
    obtain ⟨money, hcons⟩ := ih (undisturbed_init es e hu)
    cases hstep with
    | read _ i v hp hc => exact ⟨money, consistent_read hcons i v hp hc⟩
    | update _ i v hp => exact ⟨_, consistent_update hcons i v hp hu⟩
    | fail _ i hp => exact ⟨money, consistent_fail hcons i hp⟩
    | other _ w hv hc => exact ⟨money, consistent_other hcons w hv hc⟩

end Conservation

/-- A settlement of the server that returns is such an execution: it reads, it
writes, and its bill reports what the balance paid. -/
theorem handleCharge_exec {ι : Type} [DecidableEq ι] (env : Env) (enter exit : PassVehicle) (vip : VIPVehicle)
    (w t : World) (c : Charge) (phase : ι → Phase) (fee : ι → ℚ) (i : ι)
    (hm : choiceOf env.like w exit.plateNumber1 = .ok (.storedValue, vip)) (ha : vip.deleteStatus = "1")
    (hf : fee i = memberFee env.utcOffset w enter exit vip) (hp : phase i = .idle)
    (h : run (handleCharge env enter exit) w = (.ok c, t)) :
    ∃ exemption, c.json.bill.map (·.feeExemption) = some exemption ∧
      Exec env.like exit.plateNumber1 fee ⟨w, phase⟩ [.read i, .update i, .other]
        ⟨t, Function.update phase i (.settled exemption)⟩ := by
  obtain ⟨hl, hbill⟩ := handleCharge_returned env enter exit vip w t hm ha c h
  rw [← hf] at hl hbill
  refine ⟨feeExemption vip.remainMoney (fee i), hbill, ?_⟩
  have hread : Step env.like exit.plateNumber1 fee (.read i) ⟨w, phase⟩ _ := .read _ i vip hp hm
  have hupdate : Step env.like exit.plateNumber1 fee (.update i) ⟨w, Function.update phase i (.holding vip)⟩ _ :=
    .update _ i vip (Function.update_self i _ phase)
  dsimp only at hupdate
  rw [Function.update_idem] at hupdate
  have hvips : t.vips = (debited vip.id (written (leftMoney vip.remainMoney (fee i))) w).vips :=
    congrArg (fun x => x.2.2.2.2.2) hl
  have hconfig : t.config = w.config := congrArg (fun x => x.2.1) hl
  have hother : Step env.like exit.plateNumber1 fee .other
      ⟨debited vip.id (written (leftMoney vip.remainMoney (fee i))) w,
        Function.update phase i (.settled (feeExemption vip.remainMoney (fee i)))⟩ _ :=
    .other _ t hvips hconfig
  exact .snoc _ _ _ [.read i, .update i] _ (.snoc _ _ _ [.read i] _ (.snoc _ _ _ [] _ (.nil _) hread) hupdate) hother

/-- Settlements that do not write in each other's way lose no debit: balance and
bills are those of the settlements one after the other in the order of their
updates. Where these balances are kept, the balance has gone down by what the
bills report. -/
theorem no_lost_debit {ι : Type} [DecidableEq ι] [Fintype ι] (like : List UInt8 → String → Bool) (plate : String)
    (fee : ι → ℚ) (row : VIPVehicle) (s t : Settling ι) (es : List (Event ι))
    (he : Exec like plate fee s es t) (hi : ∀ i, s.phase i = .idle) (hrow : row ∈ s.world.vips)
    (hm : choiceOf like s.world plate = .ok (.storedValue, handleQueryVipVehicle row)) (hu : Undisturbed es) :
    ∃ row' ∈ t.world.vips, choiceOf like t.world plate = .ok (.storedValue, handleQueryVipVehicle row') ∧
      row'.id = row.id ∧ row'.remainMoney = inTurn fee (updates es) row.remainMoney ∧
      ∑ i, (t.phase i).exemption = exemptions fee (updates es) row.remainMoney ∧
      (KeptInTurn fee (updates es) row.remainMoney →
        row.remainMoney - row'.remainMoney = ∑ i, (t.phase i).exemption ∧
        row'.remainMoney = (updates es).foldl (fun money i => leftMoney money (fee i)) row.remainMoney) := by
  obtain ⟨money, h⟩ := consistent_exec he hi hrow hm hu
  refine ⟨withMoney row money, h.stored, h.member, rfl, h.sequential, h.reported, fun hkept => ?_⟩
  obtain ⟨hsum, hturn⟩ := sub_inTurn fee (updates es) row.remainMoney hkept
  rw [← h.sequential] at hsum hturn
  rw [h.reported]
  exact ⟨hsum, hturn⟩

/-- The statements of two settlements of two units each for the example's member. -/
abbrev ExitsOfA1 (es : List (Event Bool)) (t : Settling Bool) : Prop :=
  Exec (fun _ _ => false) "A1" (fun _ => 2) ⟨Settlement.hourlyPark [], fun _ => .idle⟩ es t

/-- The example's member with the balance that a settlement reads. -/
def readMember (money : ℚ) : VIPVehicle := handleQueryVipVehicle (withMoney Settlement.storedMember money)

theorem readMember_first : choiceOf (fun _ _ => false) (Settlement.hourlyPark []) "A1" =
    .ok (.storedValue, readMember 50) := rfl

/-- Two exits, one after the other. -/
theorem no_lost_debit_in_turn : ∃ t,
    ExitsOfA1 [.read false, .update false, .read true, .update true] t ∧
    ∃ row' ∈ t.world.vips, choiceOf (fun _ _ => false) t.world "A1" = .ok (.storedValue, handleQueryVipVehicle row') ∧
      row'.id = "v1" ∧ 50 - row'.remainMoney = ∑ i, (t.phase i).exemption ∧
      row'.remainMoney = leftMoney (leftMoney 50 2) 2 := by
  have h₁ : ExitsOfA1 [.read false] _ := .snoc _ _ _ [] _ (.nil _) (.read _ false (readMember 50) rfl readMember_first)
  have h₂ : ExitsOfA1 [.read false, .update false] _ := .snoc _ _ _ _ _ h₁ (.update _ false _ rfl)
  have h₃ : ExitsOfA1 [.read false, .update false, .read true] _ :=
    .snoc _ _ _ _ _ h₂ (.read _ true (readMember (debit 2 50)) rfl rfl)
  have h₄ : ExitsOfA1 [.read false, .update false, .read true, .update true] _ :=
    .snoc _ _ _ _ _ h₃ (.update _ true _ rfl)
  have hu : Undisturbed [.read false, .update false, .read true, .update true] := by
    intro before between after i j hes
    simp [List.cons_eq_append_iff, List.append_eq_cons_iff] at hes
    grind
  have hkept : KeptInTurn (fun _ : Bool => ((2 : ℕ) : ℚ)) [false, true] (50 : ℕ) :=
    keptInTurn_natCast (fun _ => 2) [false, true] 50 (by decide)
  obtain ⟨row', hmem, hc, hid, -, -, hexact⟩ := no_lost_debit _ "A1" _ Settlement.storedMember _ _ _ h₄
    (fun _ => rfl) (by decide) readMember_first hu
  obtain ⟨hsum, hturn⟩ := hexact hkept
  exact ⟨_, h₄, row', hmem, hc, hid, hsum, hturn⟩

/-- Two exits that both read the member before either of them writes: four units
are reported as paid and two are taken. -/
theorem overlapping_debit_lost : ∃ t,
    ExitsOfA1 [.read false, .read true, .update false, .update true] t ∧
    t.world.vips.map (·.remainMoney) = [48] ∧ ∑ i, (t.phase i).exemption = 4 ∧
    ∃ vip', choiceOf (fun _ _ => false) t.world "A1" = .ok (.storedValue, vip') ∧
      50 - vip'.remainMoney = 2 := by
  have h₁ : ExitsOfA1 [.read false] _ := .snoc _ _ _ [] _ (.nil _) (.read _ false (readMember 50) rfl readMember_first)
  have h₂ : ExitsOfA1 [.read false, .read true] _ :=
    .snoc _ _ _ _ _ h₁ (.read _ true (readMember 50) rfl readMember_first)
  have h₃ : ExitsOfA1 [.read false, .read true, .update false] _ :=
    .snoc _ _ _ _ _ h₂ (.update _ false (readMember 50) rfl)
  have h₄ : ExitsOfA1 [.read false, .read true, .update false, .update true] _ :=
    .snoc _ _ _ _ _ h₃ (.update _ true (readMember 50) rfl)
  refine ⟨_, h₄, by decide +kernel, ?_, readMember (debit 2 50), rfl, by decide +kernel⟩
  rw [Fintype.sum_bool]
  decide +kernel

end BitPark.Balance

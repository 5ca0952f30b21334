import Stoppage.Lib.Series
import Stoppage.Oracle.PriceBinding

/-! # Which price a price market is settled on

The price receiver posts the updates of a feed, each with its own publish time and that of the
update before it. `validate_price` accepts any update of the window and does not look at the
earlier time, so an answer is the one of the first price from the reference time on exactly when
the price stays on one side of the threshold through the window: `answer_unique_iff`.
-/

namespace Stoppage
open Fallible LittleEndian Series
set_option autoImplicit false

namespace PythValidator

/-! ## Price accounts -/

structure Update where
  price : Int64
  conf : UInt64
  exponent : Int32
  publishTime : Int64
  prevPublishTime : Int64
  emaPrice : Int64
  emaConf : UInt64
deriving DecidableEq

/-- The publish time in seconds. -/
def Update.time (u : Update) : ℤ := u.publishTime.toInt

/-- How many guardians have signed a posted update. -/
inductive VerificationLevel where
  | partially (numSignatures : UInt8)
  | fully

def VerificationLevel.encode : VerificationLevel → Bytes
  | .partially n => [0, n]
  | .fully => [1]

/-- What a `PriceUpdateV2` account holds apart from the update. -/
structure Posting where
  writeAuthority : Pubkey
  verificationLevel : VerificationLevel
  postedSlot : UInt64

def Posting.encode (p : Posting) (feed : List.Vector UInt8 32) (u : Update) : Bytes :=
  priceUpdateV2Discriminator ++ (p.writeAuthority.bytes ++ (p.verificationLevel.encode ++
    (feed.1 ++ (encodeI64 u.price ++ (LittleEndian.encode 8 u.conf.toNat ++
      (LittleEndian.encode 4 u.exponent.toUInt32.toNat ++ (encodeI64 u.publishTime ++
        (encodeI64 u.prevPublishTime ++ (encodeI64 u.emaPrice ++
          (LittleEndian.encode 8 u.emaConf.toNat ++
            LittleEndian.encode 8 p.postedSlot.toNat))))))))))

/-- A history of genuine updates: the times move forward and each update carries the time of the
one before it. -/
def Genuine (us : List Update) : Prop :=
  us.IsChain fun u v => u.time < v.time ∧ v.prevPublishTime = u.publishTime

instance : DecidablePred Genuine := fun us => inferInstanceAs (Decidable (us.IsChain _))

theorem Genuine.forward {us : List Update} (h : Genuine us) :
    Forward Update.time us :=
  h.imp fun _ _ huv => huv.1

section Encode
variable (p : Posting) (feed : List.Vector UInt8 32) (u : Update) (rest : Bytes)

/-- What stands behind the discriminator and the authority. -/
theorem drop_encode : (p.encode feed u ++ rest).drop (8 + 32) = p.verificationLevel.encode ++
    ((feed.1 ++ (encodeI64 u.price ++ (LittleEndian.encode 8 u.conf.toNat ++
      (LittleEndian.encode 4 u.exponent.toUInt32.toNat ++ (encodeI64 u.publishTime ++
        (encodeI64 u.prevPublishTime ++ (encodeI64 u.emaPrice ++
          (LittleEndian.encode 8 u.emaConf.toNat ++
            LittleEndian.encode 8 p.postedSlot.toNat)))))))) ++ rest) := by
  have h0 : (p.encode feed u ++ rest).drop 0 = _ := List.append_assoc _ _ _
  obtain ⟨-, h8⟩ := read_field (n := 8) h0 rfl
  rw [List.append_assoc] at h8
  obtain ⟨-, h40⟩ := read_field h8 p.writeAuthority.size
  rwa [List.append_assoc] at h40

theorem messageOffset_encode :
    messageOffset (p.encode feed u ++ rest) = 8 + 32 + p.verificationLevel.encode.length ∧
      (p.encode feed u ++ rest).getD (8 + 32) 0 ≤ 1 := by
  have h40 := drop_encode p feed u rest
  rw [messageOffset]
  cases hlevel : p.verificationLevel with
  | partially n =>
    rw [hlevel] at h40
    rw [getD_of_drop h40]
    exact ⟨rfl, by decide⟩
  | fully =>
    rw [hlevel] at h40
    rw [getD_of_drop h40]
    exact ⟨rfl, by decide⟩

/-- What `validate_price` reads is what the receiver posted, whatever bytes follow it. -/
theorem fields_encode : messageFeed (p.encode feed u ++ rest) = feed.1 ∧
    messagePrice (p.encode feed u ++ rest) = u.price ∧
    messagePublishTime (p.encode feed u ++ rest) = u.publishTime := by
  have h40 := drop_encode p feed u rest
  obtain ⟨-, hmessage⟩ := read_field h40 rfl
  rw [← (messageOffset_encode p feed u rest).1] at hmessage
  simp only [List.append_assoc] at hmessage
  obtain ⟨hfeed, h32⟩ := read_field hmessage feed.2
  obtain ⟨hprice, hconf⟩ := read_field h32 (length_encodeI64 _)
  obtain ⟨-, hexponent⟩ := read_field hconf (length_encode 8 _)
  obtain ⟨-, htime⟩ := read_field hexponent (length_encode 4 _)
  obtain ⟨hpublish, -⟩ := read_field htime (length_encodeI64 _)
  refine ⟨hfeed, ?_, ?_⟩
  · rw [messagePrice, hprice, decodeI64_encodeI64]
  · rw [messagePublishTime]
    rw [Nat.add_assoc, Nat.add_assoc, Nat.add_assoc] at hpublish
    rw [hpublish, decodeI64_encodeI64]

theorem length_encode_ge : priceUpdateV2MinLen ≤ (p.encode feed u ++ rest).length := by
  have hlevel : 1 ≤ p.verificationLevel.encode.length := by
    cases p.verificationLevel with
    | partially n => exact Nat.le_succ 1
    | fully => exact le_rfl
  simp only [Posting.encode, priceUpdateV2Discriminator, List.length_append, List.length_cons,
    List.length_nil, p.writeAuthority.size, feed.2, length_encodeI64, length_encode,
    priceUpdateV2MinLen]
  omega

end Encode

/-! ## Answers -/

def Args.windowEnd (a : Args) : ℤ := a.referenceTs.toInt + a.maxStalenessSeconds.toNat

def Args.Admits (a : Args) (u : Update) : Prop :=
  Within Update.time a.referenceTs.toInt a.windowEnd u

/-- The answer for one posted update, whatever bytes follow it. -/
theorem validatePrice_append {p : Posting} {feed : List.Vector UInt8 32} {u : Update} {a : Args}
    {holds : Bool} (rest : Bytes) :
    validatePrice pythReceiverProgramId (p.encode feed u ++ rest) a = .ok holds ↔
      a.feedId = feed ∧ a.windowEnd < 2 ^ 63 ∧ a.Admits u ∧
        holds = decide (a.threshold ≤ u.price) := by
  obtain ⟨hfeed, hprice, hpublish⟩ := fields_encode p feed u rest
  have hlow := a.referenceTs.le_toInt
  constructor
  · intro h
    obtain ⟨hobserved, rfl⟩ := validatePrice_ok h
    have hbefore := hobserved.notBefore
    have hafter := hobserved.notAfter
    simp only [validatePrice, bind_eq_ok, require_eq_ok, checkedAddInt_u32_eq_ok] at h
    obtain ⟨-, -, -, -, -, -, -, -, -, -, upper, hupper, -⟩ := h
    have hfits := upper.toInt_lt
    rw [hpublish] at hbefore hafter
    refine ⟨Subtype.ext (hobserved.feed.symm.trans hfeed), ?_, ⟨hbefore, hafter⟩, ?_⟩
    · rw [Args.windowEnd, ← hupper]
      exact hfits
    · rw [hprice]
  · rintro ⟨rfl, hfits, ⟨hbefore, hafter⟩, rfl⟩
    obtain ⟨upper, hupper⟩ : ∃ upper : Int64, upper.toInt = a.windowEnd :=
      exists_toInt (by rw [Args.windowEnd]; omega) hfits
    have hdisc : (p.encode a.feedId u ++ rest).take 8 = priceUpdateV2Discriminator := by
      rw [Posting.encode, List.append_assoc]
      exact List.take_left' rfl
    rw [validatePrice, require_of rfl, ok_bind, require_of (length_encode_ge p _ u rest), ok_bind,
      require_of hdisc, ok_bind, require_of (messageOffset_encode p _ u rest).2, ok_bind,
      require_of hfeed, ok_bind, checkedAddInt_u32_eq_ok.mpr hupper, ok_bind, hpublish, hprice,
      require_of (Int64.le_iff_toInt_le.mpr hbefore), ok_bind,
      require_of (Int64.le_iff_toInt_le.mpr (hupper ▸ hafter))]
    rfl

theorem validatePrice_encode {p : Posting} {feed : List.Vector UInt8 32} {u : Update} {a : Args}
    {holds : Bool} : validatePrice pythReceiverProgramId (p.encode feed u) a = .ok holds ↔
      a.feedId = feed ∧ a.windowEnd < 2 ^ 63 ∧ a.Admits u ∧
        holds = decide (a.threshold ≤ u.price) := by
  rw [← List.append_nil (p.encode feed u), validatePrice_append]

/-- Some account with an update of the history is answered so. -/
def Answers (feed : List.Vector UInt8 32) (us : List Update) (a : Args) (holds : Bool) : Prop :=
  ∃ u ∈ us, ∃ p : Posting, validatePrice pythReceiverProgramId (p.encode feed u) a = .ok holds

/-- The answer that the first price from the reference time on gives. -/
def FirstAnswer (us : List Update) (a : Args) (holds : Bool) : Prop :=
  ∃ u, us.find? (fun u => decide (a.referenceTs.toInt ≤ u.time)) = some u ∧
    holds = decide (a.threshold ≤ u.price)

/-- Within the window the price stays on one side of the threshold, from each update to the
next. -/
def StaysOnSide (feed : List.Vector UInt8 32) (us : List Update) (a : Args) : Prop :=
  a.feedId = feed → a.windowEnd < 2 ^ 63 →
    Steady Update.time a.referenceTs.toInt a.windowEnd (fun u => a.threshold ≤ u.price) us

section History
variable {feed : List.Vector UInt8 32} {us : List Update} {a : Args}

theorem StaysOnSide.agree (hgenuine : Genuine us) (h : StaysOnSide feed us a) {u v : Update}
    {p q : Posting} {r r' : Bool} (hu : u ∈ us) (hv : v ∈ us)
    (hr : validatePrice pythReceiverProgramId (p.encode feed u) a = .ok r)
    (hr' : validatePrice pythReceiverProgramId (q.encode feed v) a = .ok r') : r = r' := by
  obtain ⟨hfeed, hfits, huw, rfl⟩ := validatePrice_encode.mp hr
  obtain ⟨-, -, hvw, rfl⟩ := validatePrice_encode.mp hr'
  have hagree := (h hfeed hfits).agree hgenuine.forward hu hv huw hvw
  exact decide_eq_decide.mpr hagree

theorem staysOnSide_of_agree
    (h : ∀ u ∈ us, ∀ v ∈ us, a.feedId = feed → a.windowEnd < 2 ^ 63 → a.Admits u → a.Admits v →
      (a.threshold ≤ u.price ↔ a.threshold ≤ v.price)) : StaysOnSide feed us a := by
  intro hfeed hfits
  refine Steady.of_agree fun u hu v hv => ?_
  exact h u hu v hv hfeed hfits

theorem answers_of {u : Update} (hu : u ∈ us) (hfeed : a.feedId = feed)
    (hfits : a.windowEnd < 2 ^ 63) (huw : a.Admits u) :
    Answers feed us a (decide (a.threshold ≤ u.price)) :=
  ⟨u, hu, ⟨pythReceiverProgramId, .fully, 0⟩, validatePrice_encode.mpr ⟨hfeed, hfits, huw, rfl⟩⟩

/-- An accepted update is no earlier than the first one, which is then accepted as well. -/
theorem exists_first (hgenuine : Genuine us) {v : Update} (hv : v ∈ us) (hvw : a.Admits v) :
    ∃ u ∈ us, us.find? (fun u => decide (a.referenceTs.toInt ≤ u.time)) = some u ∧
      a.Admits u := by
  have hsome : (us.find? fun u => decide (a.referenceTs.toInt ≤ u.time)).isSome :=
    List.find?_isSome.mpr ⟨v, hv, decide_eq_true hvw.1⟩
  obtain ⟨u, hu⟩ := Option.isSome_iff_exists.mp hsome
  have hle : u.time ≤ v.time :=
    first_le (fun _ => decide_eq_true_iff) hgenuine.forward hu hv hvw.1
  have hstart := List.find?_some hu
  exact ⟨u, List.mem_of_find?_eq_some hu, hu, of_decide_eq_true hstart, hle.trans hvw.2⟩

/-- **Which answers a history has.** No two accounts of the history are answered differently, and
every answer is that of the first price from the reference time on, exactly when the price stays
on one side of the threshold through the window. -/
theorem answer_unique_iff (hgenuine : Genuine us) :
    (¬ (Answers feed us a true ∧ Answers feed us a false) ↔ StaysOnSide feed us a) ∧
    ((∀ holds, Answers feed us a holds → FirstAnswer us a holds) ↔ StaysOnSide feed us a) := by
  have hunique : ¬ (Answers feed us a true ∧ Answers feed us a false) ↔ StaysOnSide feed us a := by
    constructor
    · intro h
      refine staysOnSide_of_agree fun u hu v hv hfeed hfits huw hvw => ?_
      have hau := answers_of hu hfeed hfits huw
      have hav := answers_of hv hfeed hfits hvw
      by_cases hup : a.threshold ≤ u.price <;> by_cases hvp : a.threshold ≤ v.price
      · exact iff_of_true hup hvp
      · rw [decide_eq_true hup] at hau
        rw [decide_eq_false hvp] at hav
        exact absurd ⟨hau, hav⟩ h
      · rw [decide_eq_false hup] at hau
        rw [decide_eq_true hvp] at hav
        exact absurd ⟨hav, hau⟩ h
      · exact iff_of_false hup hvp
    · rintro h ⟨⟨u, hu, p, hp⟩, ⟨v, hv, q, hq⟩⟩
      exact Bool.noConfusion (h.agree hgenuine hu hv hp hq)
  refine ⟨hunique, ?_, ?_⟩
  · intro h
    rw [← hunique]
    rintro ⟨htrue, hfalse⟩
    obtain ⟨u, hu, hut⟩ := h true htrue
    obtain ⟨v, hv, hvf⟩ := h false hfalse
    cases hu.symm.trans hv
    exact Bool.noConfusion (hut.trans hvf.symm)
  · rintro h holds ⟨v, hv, q, hq⟩
    obtain ⟨hfeed, hfits, hvw, -⟩ := validatePrice_encode.mp hq
    obtain ⟨u, hu, hfirst, huw⟩ := exists_first hgenuine hv hvw
    have hfirstAnswer : validatePrice pythReceiverProgramId (q.encode feed u) a =
        .ok (decide (a.threshold ≤ u.price)) :=
      validatePrice_encode.mpr ⟨hfeed, hfits, huw, rfl⟩
    exact ⟨u, hfirst, h.agree hgenuine hv hu hq hfirstAnswer⟩

end History

end PythValidator

namespace Sample

/-- The price crosses 65000 dollars between the first and the second update after the close. -/
def crossing : List PythValidator.Update :=
  [⟨5900000000000, 0, -8, 1700000995, 1700000990, 0, 0⟩,
    ⟨6000000000000, 0, -8, 1700001005, 1700000995, 0, 0⟩,
    ⟨6600000000000, 0, -8, 1700001020, 1700001005, 0, 0⟩]

def fullPosting : PythValidator.Posting := ⟨carol, .fully, 0⟩

def laterAccount : Pubkey :=
  ⟨[46, 45, 70, 119, 79, 75, 248, 138, 103, 174, 26, 225, 207, 53, 206, 246,
    77, 77, 35, 80, 204, 47, 48, 84, 80, 190, 213, 169, 142, 167, 101, 136], rfl⟩

def firstMinute : PythValidator.Args := ⟨feedId, 6500000000000, 1700001000, 60⟩

/-- Both updates after the close are posted. -/
def bothPosted : List Action :=
  [setUp, create 1700001000 pythValidatorId, .tick 1700001030,
    .write priceAccount ⟨pythReceiverProgramId, fullPosting.encode feedId
      ⟨6000000000000, 0, -8, 1700001005, 1700000995, 0, 0⟩⟩,
    .write laterAccount ⟨pythReceiverProgramId, fullPosting.encode feedId
      ⟨6600000000000, 0, -8, 1700001020, 1700001005, 0, 0⟩⟩]

/-- Asking for the outcome with one of the accounts, and settling on it. -/
def settleBy (account : Pubkey) (outcome : UInt8) : List Action :=
  [call (.resolveMarket carol (.market market) "" (List.Vector.replicate 32 0) outcome
    (PythValidator.validatePriceDiscriminator ++ firstMinute.encode)
    [.external pythValidatorId, .external account]), settle outcome]

end Sample

/-- In a history that stays below the threshold every answer is NO. -/
theorem answer_unique_iff_sample :
    PythValidator.Genuine (Sample.crossing.take 2) ∧
      ∀ holds, PythValidator.Answers Sample.feedId (Sample.crossing.take 2) Sample.firstMinute
        holds → PythValidator.FirstAnswer (Sample.crossing.take 2) Sample.firstMinute holds := by
  have hgenuine : PythValidator.Genuine (Sample.crossing.take 2) := by decide
  refine ⟨hgenuine, (PythValidator.answer_unique_iff hgenuine).2.mpr ?_⟩
  refine PythValidator.staysOnSide_of_agree fun u hu v hv _ _ _ _ => ?_
  have hbelow : ∀ w ∈ Sample.crossing.take 2,
      ¬ Sample.firstMinute.threshold ≤ w.price := by decide
  exact iff_of_false (hbelow u hu) (hbelow v hv)

/-- Whoever settles picks the outcome: either update of the window is accepted, and the market is
settled to YES by the one and to NO by the other. -/
theorem settler_chooses :
    PythValidator.Genuine Sample.crossing ∧
      PythValidator.Answers Sample.feedId Sample.crossing Sample.firstMinute true ∧
      PythValidator.Answers Sample.feedId Sample.crossing Sample.firstMinute false ∧
      ∃ s t t', Reachable Sample.runtime s ∧
        TransitionSystem.Steps (Step Sample.runtime) s (Sample.settleBy Sample.priceAccount 1) t ∧
        Sample.Stands statusSettled sideNo t ∧
        TransitionSystem.Steps (Step Sample.runtime) s (Sample.settleBy Sample.laterAccount 0) t' ∧
        Sample.Stands statusSettled sideYes t' := by
  have hrun : Action.runsTo Sample.runtime Sample.bothPosted Sample.genesis (fun s =>
      Action.runsTo Sample.runtime (Sample.settleBy Sample.priceAccount 1) s
        (Sample.Stands statusSettled sideNo) = true ∧
      Action.runsTo Sample.runtime (Sample.settleBy Sample.laterAccount 0) s
        (Sample.Stands statusSettled sideYes) = true) = true := by decide +kernel
  obtain ⟨s, hposted, hfirst, hlater⟩ := steps_of_runsTo hrun
  obtain ⟨t, hsteps, hno⟩ := steps_of_runsTo hfirst
  obtain ⟨t', hsteps', hyes⟩ := steps_of_runsTo hlater
  have hyes_of : ∀ u ∈ Sample.crossing, Sample.firstMinute.Admits u →
      PythValidator.Answers Sample.feedId Sample.crossing Sample.firstMinute
        (decide (Sample.firstMinute.threshold ≤ u.price)) :=
    fun u hu huw => PythValidator.answers_of hu rfl (by decide) huw
  exact ⟨by decide, hyes_of _ (List.mem_cons_of_mem _ (List.mem_cons_of_mem _ List.mem_cons_self))
      ⟨by decide, by decide⟩,
    hyes_of _ (List.mem_cons_of_mem _ List.mem_cons_self) ⟨by decide, by decide⟩,
    s, t, t', ⟨_, _, Sample.genesis_ok, hposted⟩, hsteps, hno, hsteps', hyes⟩

end Stoppage

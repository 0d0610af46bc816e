import RtosMqtt.Wire.Context
import RtosMqtt.Wire.Tables
import RtosMqtt.Wire.Validate

/-! # What a CONNECT announces

A property section says at most one value of each kind. Two of the walks over
the section of a CONNECT, the one that updates the session and the one that
checks it, are compared with the one that gathers what it says.
-/

namespace RtosMqtt

namespace PropertyReader

theorem u16_eq_ok {used : Bool} {value : UInt16} {r r' : PropertyReader}
    (h : u16 used r = (.ok value, r')) : u16 false r = (.ok value, r') :=
  u16_eq_ok_iff.mpr ⟨rfl, (u16_eq_ok_iff.mp h).2⟩

theorem u32_eq_ok {used : Bool} {value : ℕ} {r r' : PropertyReader}
    (h : u32 used r = (.ok value, r')) : u32 false r = (.ok value, r') :=
  u32_eq_ok_iff.mpr ⟨rfl, (u32_eq_ok_iff.mp h).2⟩

end PropertyReader

open PropertyReader (Covers Reading)

structure Announcement where
  sessionExpiry : Option ℕ := none
  receiveMax : Option UInt16 := none
  maxPacketSize : Option ℕ := none
  topicAliasMax : Option UInt16 := none
  requestResponseInfo : Option Bool := none
  requestProblemInfo : Option Bool := none
  deriving DecidableEq, Repr

namespace Announcement

def property (a : Announcement) (id : UInt8) : Reading Announcement :=
  if id = PropertyId.sessionExpiry then do
    let sessionExpiry ← PropertyReader.u32 false
    pure { a with sessionExpiry := some sessionExpiry }
  else if id = PropertyId.receiveMax then do
    let receiveMax ← PropertyReader.u16 false
    pure { a with receiveMax := some receiveMax }
  else if id = PropertyId.maxPacketSize then do
    let maxPacketSize ← PropertyReader.u32 false
    pure { a with maxPacketSize := some maxPacketSize }
  else if id = PropertyId.topicAliasMax then do
    let topicAliasMax ← PropertyReader.u16 false
    pure { a with topicAliasMax := some topicAliasMax }
  else if id = PropertyId.requestResponse then do
    let value ← PropertyReader.u8 false
    pure { a with requestResponseInfo := some (value == 1) }
  else if id = PropertyId.requestProblem then do
    let value ← PropertyReader.u8 false
    pure { a with requestProblemInfo := some (value == 1) }
  else if id = PropertyId.authMethod ∨ id = PropertyId.authData then do
    let _ ← PropertyReader.utf8 false
    pure a
  else if id = PropertyId.userProperty then do
    let _ ← PropertyReader.userProperty
    pure a
  else Prog.throw .badResponse

def decode (properties : List UInt8) : Except ParseError Announcement :=
  PropertyReader.walk property {} properties properties.length

def writtenOver (a : Announcement) (p : ConnectionProperties) : ConnectionProperties :=
  { p with
    sessionExpiry := a.sessionExpiry.getD p.sessionExpiry
    client := { p.client with
      receiveMax := a.receiveMax.getD p.client.receiveMax
      maxPacketSize := a.maxPacketSize.getD p.client.maxPacketSize
      topicAliasMax := a.topicAliasMax.getD p.client.topicAliasMax } }

end Announcement

namespace ConnectUpdate

variable {α : Type} {p : Reading α}

theorem reading_eq_ok {a : α} {s t : PropertyReader × ConnectUpdate}
    (h : reading p s = (.ok a, t)) : p s.1 = (.ok a, t.1) ∧ t.2 = s.2 := by
  unfold reading at h
  obtain ⟨r, u⟩ := s
  dsimp only at h
  rcases hp : p r with ⟨_ | b, r'⟩
  · rw [hp] at h
    cases h
  · rw [hp] at h
    obtain ⟨hb, rfl⟩ := Prod.mk.inj h
    rw [Except.ok.inj hb]
    exact ⟨rfl, rfl⟩

variable {a : Announcement} {before : ConnectionProperties} {id : UInt8} {turns : ℕ}
  {s t : PropertyReader × ConnectUpdate}

/-- A property that is written is one that is gathered. -/
theorem property_follows (hover : s.2.context = a.writtenOver before)
    (h : property id s = (.ok (), t)) : ∃ a', a.property id s.1 = (.ok a', t.1) ∧
      t.2.context = a'.writtenOver before := by
  obtain ⟨r, u⟩ := s
  rw [property, Prog.get_bind_apply] at h
  dsimp only at h hover ⊢
  rw [Announcement.property]
  split_ifs at h with h₁ h₂ h₃ h₄ h₅ h₆ h₇
  · obtain ⟨value, v, hread, h⟩ := Prog.bind_eq_ok.mp h
    obtain ⟨hread, hv⟩ := reading_eq_ok hread
    obtain ⟨-, rfl⟩ := Prod.mk.inj h
    rw [if_pos h₁, Prog.bind_of_ok (PropertyReader.u32_eq_ok hread)]
    refine ⟨_, rfl, ?_⟩
    dsimp only
    rw [hv, hover]
    rfl
  · obtain ⟨value, v, hread, h⟩ := Prog.bind_eq_ok.mp h
    obtain ⟨hread, hv⟩ := reading_eq_ok hread
    obtain ⟨-, rfl⟩ := Prod.mk.inj h
    rw [if_neg h₁, if_pos h₂, Prog.bind_of_ok (PropertyReader.u16_eq_ok hread)]
    refine ⟨_, rfl, ?_⟩
    dsimp only
    rw [hv, hover]
    rfl
  · obtain ⟨value, v, hread, h⟩ := Prog.bind_eq_ok.mp h
    obtain ⟨hread, hv⟩ := reading_eq_ok hread
    obtain ⟨-, rfl⟩ := Prod.mk.inj h
    rw [if_neg h₁, if_neg h₂, if_pos h₃, Prog.bind_of_ok (PropertyReader.u32_eq_ok hread)]
    refine ⟨_, rfl, ?_⟩
    dsimp only
    rw [hv, hover]
    rfl
  · obtain ⟨value, v, hread, h⟩ := Prog.bind_eq_ok.mp h
    obtain ⟨hread, hv⟩ := reading_eq_ok hread
    obtain ⟨-, rfl⟩ := Prod.mk.inj h
    rw [if_neg h₁, if_neg h₂, if_neg h₃, if_pos h₄,
      Prog.bind_of_ok (PropertyReader.u16_eq_ok hread)]
    refine ⟨_, rfl, ?_⟩
    dsimp only
    rw [hv, hover]
    rfl
  · obtain ⟨value, v, hread, h⟩ := Prog.bind_eq_ok.mp h
    obtain ⟨hread, hv⟩ := reading_eq_ok hread
    obtain ⟨-, rfl⟩ := Prod.mk.inj h
    rw [if_neg h₁, if_neg h₂, if_neg h₃, if_neg h₄]
    rcases h₅ with h₅ | h₅
    · rw [if_neg (by rw [h₅]; decide), if_pos h₅, Prog.bind_of_ok hread]
      exact ⟨_, rfl, hv ▸ hover⟩
    · rw [if_pos h₅, Prog.bind_of_ok hread]
      exact ⟨_, rfl, hv ▸ hover⟩
  · obtain ⟨value, v, hread, h⟩ := Prog.bind_eq_ok.mp h
    obtain ⟨hread, hv⟩ := reading_eq_ok hread
    obtain ⟨-, rfl⟩ := Prod.mk.inj h
    rw [if_neg h₁, if_neg h₂, if_neg h₃, if_neg h₄, if_neg fun h => h₅ (.inr h),
      if_neg fun h => h₅ (.inl h), if_pos h₆.symm, Prog.bind_of_ok hread]
    exact ⟨_, rfl, hv ▸ hover⟩
  · obtain ⟨value, v, hread, h⟩ := Prog.bind_eq_ok.mp h
    obtain ⟨hread, hv⟩ := reading_eq_ok hread
    obtain ⟨-, rfl⟩ := Prod.mk.inj h
    rw [if_neg h₁, if_neg h₂, if_neg h₃, if_neg h₄, if_neg fun h => h₅ (.inr h),
      if_neg fun h => h₅ (.inl h), if_neg fun h => h₆ h.symm, if_pos h₇, Prog.bind_of_ok hread]
    exact ⟨_, rfl, hv ▸ hover⟩
  · cases h

theorem walk_follows (hover : s.2.context = a.writtenOver before)
    (h : walk turns s = (.ok (), t)) : ∃ a', PropertyReader.walkFrom Announcement.property turns a
      s.1 = (.ok a', t.1) ∧ t.2.context = a'.writtenOver before := by
  induction turns generalizing a s with
  | zero =>
    obtain ⟨-, rfl⟩ := Prod.mk.inj h
    exact ⟨a, rfl, hover⟩
  | succ turns ih =>
    rw [walk, Prog.get_bind_apply] at h
    rw [PropertyReader.walkFrom, Prog.get_bind_apply]
    dsimp only at h
    split_ifs at h ⊢ with hdone
    · obtain ⟨-, rfl⟩ := Prod.mk.inj h
      exact ⟨a, rfl, hover⟩
    · obtain ⟨id, u, hid, h⟩ := Prog.bind_eq_ok.mp h
      obtain ⟨hid, hu⟩ := reading_eq_ok hid
      obtain ⟨_, v, hproperty, h⟩ := Prog.bind_eq_ok.mp h
      obtain ⟨a₁, ha₁, hover₁⟩ := property_follows (hu ▸ hover) hproperty
      obtain ⟨a', ha', hover'⟩ := ih hover₁ h
      refine ⟨a', ?_, hover'⟩
      rw [Prog.bind_of_ok hid, Prog.bind_of_ok ha₁]
      exact ha'

end ConnectUpdate

theorem updateWithConnectProps_eq_ok {properties : List UInt8} {p p' : ConnectionProperties}
    (h : updateWithConnectProps properties p = (.ok (), p')) :
    ∃ a, Announcement.decode properties = .ok a ∧ p' = a.writtenOver p := by
  unfold updateWithConnectProps at h
  split_ifs at h with hlong
  · cases h
  generalize hwalk : ConnectUpdate.walk properties.length
    (.new properties properties.length, { context := p }) = outcome at h
  obtain ⟨result, r', u'⟩ := outcome
  obtain ⟨rfl, rfl⟩ := Prod.mk.inj h
  have hstart : p = ({} : Announcement).writtenOver p := rfl
  obtain ⟨a, ha, hover⟩ := ConnectUpdate.walk_follows hstart hwalk
  refine ⟨a, ?_, hover⟩
  unfold Announcement.decode PropertyReader.walk
  rw [ha]

/-- What the check of a section finds of Request Problem Information. -/
def ConnectWalk.Finds (w : ConnectWalk) (a : Announcement) : Prop :=
  w.found.requestProblemInfo = a.requestProblemInfo.getD false

theorem connectProperty_follows {w w' : ConnectWalk} {a : Announcement} {id : UInt8}
    {r r' : PropertyReader} (hfinds : w.Finds a) (h : connectProperty w id r = (.ok w', r')) :
    ∃ a', a.property id r = (.ok a', r') ∧ w'.Finds a' := by
  have honce {seen : List UInt8} {f : List UInt8 → Reading ConnectWalk}
      (h : (checkOnce seen id >>= f) r = (.ok w', r')) : f (id :: seen) r = (.ok w', r') := by
    rw [checkOnce, Prog.bind_assoc, Prog.refuse_bind_eq_ok] at h
    exact h.2
  have hflag {value : UInt8} {r₁ r₂ : PropertyReader} (h : readFlag r₁ = (.ok value, r₂)) :
      PropertyReader.u8 false r₁ = (.ok value, r₂) := by
    obtain ⟨value', r₃, hread, h⟩ := Prog.bind_eq_ok.mp h
    rw [Prog.refuse_bind_eq_ok] at h
    obtain ⟨hvalue, rfl⟩ := Prod.mk.inj h.2
    rw [← Except.ok.inj hvalue]
    exact hread
  rw [Announcement.property]
  unfold connectProperty at h
  split_ifs at h ⊢ with h₁ h₂ h₃ h₄ h₅ h₆ h₇ h₈
  · obtain ⟨value, r₂, hread, h⟩ := Prog.bind_eq_ok.mp (honce h)
    obtain ⟨hw, rfl⟩ := Prod.mk.inj h
    obtain rfl := Except.ok.inj hw
    rw [Prog.bind_of_ok hread]
    exact ⟨_, rfl, hfinds⟩
  · obtain ⟨value, r₂, hread, h⟩ := Prog.bind_eq_ok.mp (honce h)
    rw [Prog.refuse_bind_eq_ok] at h
    obtain ⟨hw, rfl⟩ := Prod.mk.inj h.2
    obtain rfl := Except.ok.inj hw
    rw [Prog.bind_of_ok hread]
    exact ⟨_, rfl, hfinds⟩
  · obtain ⟨value, r₂, hread, h⟩ := Prog.bind_eq_ok.mp (honce h)
    rw [Prog.refuse_bind_eq_ok] at h
    obtain ⟨hw, rfl⟩ := Prod.mk.inj h.2
    obtain rfl := Except.ok.inj hw
    rw [Prog.bind_of_ok hread]
    exact ⟨_, rfl, hfinds⟩
  · obtain ⟨value, r₂, hread, h⟩ := Prog.bind_eq_ok.mp (honce h)
    obtain ⟨hw, rfl⟩ := Prod.mk.inj h
    obtain rfl := Except.ok.inj hw
    rw [Prog.bind_of_ok hread]
    exact ⟨_, rfl, hfinds⟩
  · obtain ⟨value, r₂, hread, h⟩ := Prog.bind_eq_ok.mp (honce h)
    obtain ⟨hw, rfl⟩ := Prod.mk.inj h
    obtain rfl := Except.ok.inj hw
    rw [Prog.bind_of_ok (hflag hread)]
    exact ⟨_, rfl, hfinds⟩
  · obtain ⟨value, r₂, hread, h⟩ := Prog.bind_eq_ok.mp (honce h)
    obtain ⟨hw, rfl⟩ := Prod.mk.inj h
    obtain rfl := Except.ok.inj hw
    rw [Prog.bind_of_ok (hflag hread)]
    exact ⟨_, rfl, rfl⟩
  · obtain ⟨value, r₂, hread, h⟩ := Prog.bind_eq_ok.mp (honce h)
    obtain ⟨hw, rfl⟩ := Prod.mk.inj h
    obtain rfl := Except.ok.inj hw
    rw [Prog.bind_of_ok hread]
    exact ⟨_, rfl, hfinds⟩
  · obtain ⟨value, r₂, hread, h⟩ := Prog.bind_eq_ok.mp h
    obtain ⟨hw, rfl⟩ := Prod.mk.inj h
    obtain rfl := Except.ok.inj hw
    rw [Prog.bind_of_ok hread]
    exact ⟨_, rfl, hfinds⟩
  · cases h

theorem validateConnectProperties_eq_ok {properties : List UInt8} {found : ConnectValidation}
    (h : validateConnectProperties properties = .ok found) :
    ∃ a, Announcement.decode properties = .ok a ∧
      found.requestProblemInfo = a.requestProblemInfo.getD false := by
  unfold validateConnectProperties validateWalk at h
  rw [except_bind_eq_ok] at h
  obtain ⟨w, hw, h⟩ := h
  rw [refuseIf_bind_eq_ok, refuseIf_bind_eq_ok] at hw
  rw [refuseIf_bind_eq_ok] at h
  obtain rfl := Except.ok.inj h.2
  have hstart : ConnectWalk.Finds {} {} := rfl
  have hcovers : Covers ConnectWalk.Finds connectProperty Announcement.property :=
    connectProperty_follows
  exact hcovers.walk hstart hw.2.2

end RtosMqtt

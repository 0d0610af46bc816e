import RtosMqtt.Wire.Accepted
import RtosMqtt.Wire.Context
import RtosMqtt.Wire.Tables

/-! # A section that was checked

The check of a CONNECT's section and the update of the session from it are two tables over the
same nine properties. What the check lets through the update takes, and of the session it changes
the four values that the section gives and nothing else.
-/

namespace RtosMqtt

open PropertyReader (Walked WalksTo readsAs_u8 readsAs_u16 readsAs_u32 readsAs_utf8 readsAs_userProperty
  propertyId_eq_ok)

namespace PropertyValue

def long : PropertyValue → ℕ
  | fourBytes n => n
  | _ => 0

def word : PropertyValue → UInt16
  | twoBytes n => n
  | _ => 0

end PropertyValue

section Given

variable {σ β : Type} {ps : List Property} {id : UInt8}

/-- The value that comes with an identifier, where there is one. -/
def given (ps : List Property) (id : UInt8) : Option PropertyValue :=
  (ps.find? fun p => p.id = id).map Property.value

theorem given_cons_of_eq {p : Property} (h : p.id = id) : given (p :: ps) id = some p.value := by
  rw [given, List.find?_cons_of_pos (by simpa using h), Option.map_some]

theorem given_cons_of_ne {p : Property} (h : p.id ≠ id) : given (p :: ps) id = given ps id := by
  rw [given, List.find?_cons_of_neg (by simpa using h), given]

theorem exists_of_given {value : PropertyValue} (h : given ps id = some value) :
    ∃ p ∈ ps, p.id = id ∧ p.value = value := by
  obtain ⟨p, hfound, hvalue⟩ := Option.map_eq_some_iff.mp h
  exact ⟨p, List.mem_of_find?_eq_some hfound, by simpa using List.find?_some hfound, hvalue⟩

theorem foldl_given (f : σ → Property → σ) (slot : σ → β) (read : PropertyValue → β)
    (hwrite : ∀ s p, p.id = id → slot (f s p) = read p.value)
    (hkeep : ∀ s p, p.id ≠ id → slot (f s p) = slot s)
    (honce : ps.Pairwise fun p q => p.id = q.id → p.id ≠ id) (s : σ) :
    slot (ps.foldl f s) = (given ps id).elim (slot s) read := by
  induction ps generalizing s with
  | nil => rfl
  | cons p ps ih =>
    obtain ⟨hfirst, honce⟩ := List.pairwise_cons.mp honce
    rw [List.foldl_cons, ih honce]
    by_cases hid : p.id = id
    · have hnone : given ps id = none := by
        by_contra hsome
        obtain ⟨value, hvalue⟩ := Option.ne_none_iff_exists'.mp hsome
        obtain ⟨q, hq, hqid, -⟩ := exists_of_given hvalue
        exact hfirst q hq (hid.trans hqid.symm) hid
      rw [hnone, given_cons_of_eq hid, Option.elim_none, Option.elim_some, hwrite s p hid]
    · rw [given_cons_of_ne hid, hkeep s p hid]

end Given

def connectIds : List UInt8 :=
  [PropertyId.sessionExpiry, PropertyId.receiveMax, PropertyId.maxPacketSize,
    PropertyId.topicAliasMax, PropertyId.requestResponse, PropertyId.requestProblem,
    PropertyId.authMethod, PropertyId.authData, PropertyId.userProperty]

structure ConnectWalk.Passes (w : ConnectWalk) (p : Property) (w' : ConnectWalk) : Prop where
  known : p.id ∈ connectIds
  fresh : p.id ≠ PropertyId.userProperty → p.id ∉ w.seen
  seen : w'.seen = if p.id = PropertyId.userProperty then w.seen else p.id :: w.seen
  receiveMax : p.id = PropertyId.receiveMax → p.value.word ≠ 0
  maxPacketSize : p.id = PropertyId.maxPacketSize → p.value.long ≠ 0
  found : w'.found.maxPacketSize =
    if p.id = PropertyId.maxPacketSize then some p.value.long else w.found.maxPacketSize

theorem checkOnce_bind_eq_ok {seen : List UInt8} {id : UInt8}
    {f : List UInt8 → PropertyReader.Reading ConnectWalk} {w : ConnectWalk} {r r' : PropertyReader}
    (h : (checkOnce seen id >>= f) r = (.ok w, r')) : id ∉ seen ∧ f (id :: seen) r = (.ok w, r') := by
  rw [checkOnce, Prog.bind_assoc, Prog.refuse_bind_eq_ok] at h
  exact h

theorem PropertyReader.ReadsAs.read {β : Type} {read : PropertyReader.Reading β}
    {wrap : β → PropertyValue} {w : Width} {p : Property} {r r' : PropertyReader}
    (h : PropertyReader.ReadsAs read false wrap w) (hid : widthOf p.id = some w)
    (hreads : r.Reads p.value.encoded r') : ∃ b, p.value = wrap b ∧ read r = (.ok b, r') := by
  obtain ⟨b, hvalue⟩ := h.all p.value (Option.some.inj (p.typed.symm.trans hid))
  have hfits := p.fits
  rw [hvalue] at hreads hfits
  exact ⟨b, hvalue, h.eq_ok.mpr ⟨rfl, hfits, hreads⟩⟩

theorem passes_of_other {w : ConnectWalk} {p : Property} {found : ConnectValidation}
    (hknown : p.id ∈ connectIds) (hother : p.id ∉ [PropertyId.receiveMax, PropertyId.maxPacketSize,
      PropertyId.userProperty]) (hfresh : p.id ∉ w.seen)
    (hfound : found.maxPacketSize = w.found.maxPacketSize) :
    w.Passes p { seen := p.id :: w.seen, found } := by
  simp only [List.mem_cons, List.not_mem_nil, or_false, not_or] at hother
  obtain ⟨hreceive, hmax, huser⟩ := hother
  exact
    { known := hknown
      fresh := fun _ => hfresh
      seen := (if_neg huser).symm
      receiveMax := fun h => absurd h hreceive
      maxPacketSize := fun h => absurd h hmax
      found := hfound.trans (if_neg hmax).symm }

theorem passes_of_connectProperty {w w' : ConnectWalk} {p : Property} {r r' : PropertyReader}
    (hreads : r.Reads p.value.encoded r') (h : connectProperty w p.id r = (.ok w', r')) :
    w.Passes p w' := by
  unfold connectProperty at h
  split_ifs at h with h₁ h₂ h₃ h₄ h₅ h₆ h₇ h₈
  · obtain ⟨hfresh, h⟩ := checkOnce_bind_eq_ok h
    obtain ⟨n, -, hread⟩ := (readsAs_u32 false).read (by rw [h₁]; rfl) hreads
    rw [Prog.bind_of_ok hread] at h
    cases h
    exact passes_of_other (by rw [h₁]; decide) (by rw [h₁]; decide) hfresh rfl
  · obtain ⟨hfresh, h⟩ := checkOnce_bind_eq_ok h
    obtain ⟨n, hvalue, hread⟩ := (readsAs_u16 false).read (by rw [h₂]; rfl) hreads
    rw [Prog.bind_of_ok hread, Prog.refuse_bind_eq_ok] at h
    obtain ⟨hzero, h⟩ := h
    cases h
    exact
      { known := by rw [h₂]; decide
        fresh := fun _ => hfresh
        seen := (if_neg (by rw [h₂]; decide)).symm
        receiveMax := fun _ => by rw [hvalue]; exact hzero
        maxPacketSize := fun h => absurd (h₂.symm.trans h) (by decide)
        found := (if_neg (by rw [h₂]; decide)).symm }
  · obtain ⟨hfresh, h⟩ := checkOnce_bind_eq_ok h
    obtain ⟨n, hvalue, hread⟩ := (readsAs_u32 false).read (by rw [h₃]; rfl) hreads
    rw [Prog.bind_of_ok hread, Prog.refuse_bind_eq_ok] at h
    obtain ⟨hzero, h⟩ := h
    cases h
    exact
      { known := by rw [h₃]; decide
        fresh := fun _ => hfresh
        seen := (if_neg (by rw [h₃]; decide)).symm
        receiveMax := fun h => absurd (h₃.symm.trans h) (by decide)
        maxPacketSize := fun _ => by rw [hvalue]; exact hzero
        found := by rw [if_pos h₃, hvalue]; rfl }
  · obtain ⟨hfresh, h⟩ := checkOnce_bind_eq_ok h
    obtain ⟨n, -, hread⟩ := (readsAs_u16 false).read (by rw [h₄]; rfl) hreads
    rw [Prog.bind_of_ok hread] at h
    cases h
    exact passes_of_other (by rw [h₄]; decide) (by rw [h₄]; decide) hfresh rfl
  · obtain ⟨hfresh, h⟩ := checkOnce_bind_eq_ok h
    obtain ⟨value, r₁, -, h⟩ := Prog.bind_eq_ok.mp h
    cases h
    exact passes_of_other (by rw [h₅]; decide) (by rw [h₅]; decide) hfresh rfl
  · obtain ⟨hfresh, h⟩ := checkOnce_bind_eq_ok h
    obtain ⟨value, r₁, -, h⟩ := Prog.bind_eq_ok.mp h
    cases h
    exact passes_of_other (by rw [h₆]; decide) (by rw [h₆]; decide) hfresh rfl
  · obtain ⟨hfresh, h⟩ := checkOnce_bind_eq_ok h
    obtain ⟨bytes, r₁, -, h⟩ := Prog.bind_eq_ok.mp h
    cases h
    refine passes_of_other ?_ ?_ hfresh rfl
    · rcases h₇ with h₇ | h₇ <;> rw [h₇] <;> decide
    · rcases h₇ with h₇ | h₇ <;> rw [h₇] <;> decide
  · obtain ⟨strings, r₁, -, h⟩ := Prog.bind_eq_ok.mp h
    cases h
    exact
      { known := by rw [h₈]; decide
        fresh := fun h => absurd h₈ h
        seen := (if_pos h₈).symm
        receiveMax := fun h => absurd h h₂
        maxPacketSize := fun h => absurd h h₃
        found := (if_neg h₃).symm }
  · cases h

section Chain

variable {w last : ConnectWalk} {ps : List Property} {r r' : PropertyReader}

theorem walksTo_of_walked (h : Walked connectProperty w r ps last r') :
    WalksTo ConnectWalk.Passes w ps last := by
  induction h with
  | done _ => exact .nil _
  | step _ hvalue hproperty _ ih => exact .cons (passes_of_connectProperty hvalue hproperty) ih

/-- What a property says of the largest packet, after what was said before. -/
def saysMaxPacketSize (before : Option ℕ) (p : Property) : Option ℕ :=
  if p.id = PropertyId.maxPacketSize then some p.value.long else before

theorem found_of_walksTo (h : WalksTo ConnectWalk.Passes w ps last) :
    last.found.maxPacketSize = ps.foldl saysMaxPacketSize w.found.maxPacketSize := by
  induction h with
  | nil _ => rfl
  | cons hp _ ih => rw [ih, hp.found, List.foldl_cons, saysMaxPacketSize]

theorem forall_of_walksTo (h : WalksTo ConnectWalk.Passes w ps last) :
    ∀ p ∈ ps, (p.id = PropertyId.receiveMax → p.value.word ≠ 0) ∧
      (p.id = PropertyId.maxPacketSize → p.value.long ≠ 0) := by
  induction h with
  | nil _ => exact nofun
  | cons hp _ ih => exact List.forall_mem_cons.mpr ⟨⟨hp.receiveMax, hp.maxPacketSize⟩, ih⟩

theorem once_of_walksTo (h : WalksTo ConnectWalk.Passes w ps last) :
    (∀ p ∈ ps, p.id ≠ PropertyId.userProperty → p.id ∉ w.seen) ∧
      ps.Pairwise fun p q => p.id = q.id → p.id = PropertyId.userProperty := by
  induction h with
  | nil _ => exact ⟨nofun, .nil⟩
  | @cons w w' last p ps hp _ ih =>
    obtain ⟨hnew, honce⟩ := ih
    have hseen := hp.seen
    constructor
    · rw [List.forall_mem_cons]
      refine ⟨hp.fresh, fun q hq huser hmem => hnew q hq huser ?_⟩
      rw [hseen]
      split_ifs
      · exact hmem
      · exact List.mem_cons_of_mem _ hmem
    · refine List.pairwise_cons.mpr ⟨fun q hq hsame => ?_, honce⟩
      by_contra huser
      rw [if_neg huser] at hseen
      apply hnew q hq (by rwa [← hsame])
      rw [hseen, hsame]
      exact List.mem_cons_self

end Chain

namespace ConnectUpdate

def kept (c : ConnectionProperties) (p : Property) : ConnectionProperties :=
  if p.id = PropertyId.sessionExpiry then { c with sessionExpiry := p.value.long }
  else if p.id = PropertyId.receiveMax then
    { c with client := { c.client with receiveMax := p.value.word } }
  else if p.id = PropertyId.maxPacketSize then
    { c with client := { c.client with maxPacketSize := p.value.long } }
  else if p.id = PropertyId.topicAliasMax then
    { c with client := { c.client with topicAliasMax := p.value.word } }
  else c

theorem reading_of_ok {α : Type} {read : PropertyReader.Reading α} {a : α} {r r' : PropertyReader}
    {u : ConnectUpdate} (h : read r = (.ok a, r')) : reading read (r, u) = (.ok a, (r', u)) := by
  rw [reading, h]

/-- The update takes a property that it has not seen. -/
theorem property_of_known {p : Property} {u : ConnectUpdate} {r r' : PropertyReader}
    (hknown : p.id ∈ connectIds) (hfresh : p.id ∉ u.seen) (hreads : r.Reads p.value.encoded r') :
    ∃ u', property p.id (r, u) = (.ok (), (r', u')) ∧ u'.context = kept u.context p ∧
      ∀ id ∈ u'.seen, id ∈ u.seen ∨ id = p.id ∧ p.id ≠ PropertyId.userProperty := by
  have hused : decide (p.id ∈ u.seen) = false := decide_eq_false hfresh
  have hwritten (huser : p.id ≠ PropertyId.userProperty) : ∀ id ∈ p.id :: u.seen,
      id ∈ u.seen ∨ id = p.id ∧ p.id ≠ PropertyId.userProperty := fun id hid =>
    (List.mem_cons.mp hid).symm.imp_right fun hid => ⟨hid, huser⟩
  rw [property, Prog.get_bind_apply]
  dsimp only
  rw [hused, kept]
  split_ifs with h₁ h₂ h₃ h₄ h₅ h₆ h₇
  · obtain ⟨n, hvalue, hread⟩ := (readsAs_u32 false).read (by rw [h₁]; rfl) hreads
    rw [Prog.bind_of_ok (reading_of_ok hread), hvalue]
    exact ⟨_, rfl, rfl, hwritten (by rw [h₁]; decide)⟩
  · obtain ⟨n, hvalue, hread⟩ := (readsAs_u16 false).read (by rw [h₂]; rfl) hreads
    rw [Prog.bind_of_ok (reading_of_ok hread), hvalue]
    exact ⟨_, rfl, rfl, hwritten (by rw [h₂]; decide)⟩
  · obtain ⟨n, hvalue, hread⟩ := (readsAs_u32 false).read (by rw [h₃]; rfl) hreads
    rw [Prog.bind_of_ok (reading_of_ok hread), hvalue]
    exact ⟨_, rfl, rfl, hwritten (by rw [h₃]; decide)⟩
  · obtain ⟨n, hvalue, hread⟩ := (readsAs_u16 false).read (by rw [h₄]; rfl) hreads
    rw [Prog.bind_of_ok (reading_of_ok hread), hvalue]
    exact ⟨_, rfl, rfl, hwritten (by rw [h₄]; decide)⟩
  · obtain ⟨b, -, hread⟩ := (readsAs_u8 false).read (by rcases h₅ with h | h <;> rw [h] <;> rfl) hreads
    rw [Prog.bind_of_ok (reading_of_ok hread)]
    exact ⟨u, rfl, rfl, fun id hid => .inl hid⟩
  · obtain ⟨bytes, -, hread⟩ :=
      (readsAs_utf8 false).read (by rcases h₆ with h | h <;> rw [h] <;> rfl) hreads
    rw [Prog.bind_of_ok (reading_of_ok hread)]
    exact ⟨u, rfl, rfl, fun id hid => .inl hid⟩
  · obtain ⟨strings, -, hread⟩ := readsAs_userProperty.read (by rw [h₇]; rfl) hreads
    rw [Prog.bind_of_ok (reading_of_ok hread)]
    exact ⟨u, rfl, rfl, fun id hid => .inl hid⟩
  · simp only [connectIds, List.mem_cons, List.not_mem_nil, or_false] at hknown
    tauto

/-- Where the check went through, the update goes through. -/
theorem walk_of_walked {w last : ConnectWalk} {ps : List Property} {r r' : PropertyReader}
    (h : Walked connectProperty w r ps last r') {u : ConnectUpdate} {turns : ℕ}
    (hseen : ∀ id ∈ u.seen, id ∈ w.seen ∧ id ≠ PropertyId.userProperty)
    (hturns : r.remaining ≤ turns) :
    ∃ u', walk turns (r, u) = (.ok (), (r', u')) ∧ u'.context = ps.foldl kept u.context := by
  induction h generalizing u turns with
  | @done w r hdone =>
    refine ⟨u, ?_, rfl⟩
    cases turns with
    | zero => rfl
    | succ turns =>
      rw [walk, Prog.get_bind_apply]
      dsimp only
      rw [if_pos hdone]
      rfl
  | @step w w' last r r₁ r₂ r' p ps hid hvalue hproperty _ ih =>
    have hpasses := passes_of_connectProperty hvalue hproperty
    have hafter : r₂ = r.past p.encoded.length := by
      have hread : r.Reads p.encoded r₂ := by
        rw [Property.encoded, ← List.singleton_append, PropertyReader.reads_append]
        exact ⟨r₁, hid, hvalue⟩
      exact hread.after
    have hpos := p.length_encoded_pos
    have hroom := hid.room
    rw [List.length_singleton] at hroom
    have hdone : ¬ r.remaining = 0 := by omega
    obtain ⟨k, rfl⟩ := Nat.exists_eq_succ_of_ne_zero (Nat.ne_of_gt (by omega : 0 < turns))
    have hfresh : p.id ∉ u.seen := by
      intro hmem
      obtain ⟨hold, huser⟩ := hseen p.id hmem
      exact hpasses.fresh huser hold
    obtain ⟨u₁, hrun, hcontext, hseen₁⟩ := property_of_known hpasses.known hfresh hvalue
    have hseen' : ∀ id ∈ u₁.seen, id ∈ w'.seen ∧ id ≠ PropertyId.userProperty := by
      intro id hmem
      have hw' := hpasses.seen
      rcases hseen₁ id hmem with hold | ⟨rfl, huser⟩
      · obtain ⟨hin, hnot⟩ := hseen id hold
        refine ⟨?_, hnot⟩
        rw [hw']
        split_ifs
        · exact hin
        · exact List.mem_cons_of_mem _ hin
      · rw [if_neg huser] at hw'
        exact ⟨hw' ▸ List.mem_cons_self, huser⟩
    have hturns' : r₂.remaining ≤ k := by
      rw [hafter]
      dsimp only [PropertyReader.past]
      omega
    obtain ⟨u', hrest, hlast⟩ := ih hseen' hturns'
    refine ⟨u', ?_, by rw [hlast, hcontext, List.foldl_cons]⟩
    rw [walk, Prog.get_bind_apply]
    dsimp only
    rw [if_neg hdone, Prog.bind_of_ok (reading_of_ok (propertyId_eq_ok.mpr hid)),
      Prog.bind_of_ok hrun, hrest]

/-- The four values are those that the section gives, and the rest is as it was. -/
theorem foldl_kept {ps : List Property}
    (honce : ps.Pairwise fun p q => p.id = q.id → p.id = PropertyId.userProperty)
    (before : ConnectionProperties) :
    ps.foldl kept before =
      { before with
        sessionExpiry :=
          (given ps PropertyId.sessionExpiry).elim before.sessionExpiry PropertyValue.long
        client := { before.client with
          receiveMax :=
            (given ps PropertyId.receiveMax).elim before.client.receiveMax PropertyValue.word
          maxPacketSize :=
            (given ps PropertyId.maxPacketSize).elim before.client.maxPacketSize PropertyValue.long
          topicAliasMax :=
            (given ps PropertyId.topicAliasMax).elim before.client.topicAliasMax
              PropertyValue.word } } := by
  have honce' (id : UInt8) (hid : id ≠ PropertyId.userProperty) :
      ps.Pairwise fun p q => p.id = q.id → p.id ≠ id :=
    honce.imp fun h hsame hp => hid (hp.symm.trans (h hsame))
  have hexpiry := foldl_given kept (fun c => c.sessionExpiry) PropertyValue.long
    (fun c p h => by rw [kept, if_pos h])
    (fun c p h => by rw [kept, if_neg h]; split_ifs <;> rfl)
    (honce' PropertyId.sessionExpiry (by decide)) before
  have hreceive := foldl_given kept (fun c => c.client.receiveMax) PropertyValue.word
    (fun c p h => by rw [kept, if_neg (by rw [h]; decide), if_pos h])
    (fun c p h => by rw [kept]; split_ifs <;> rfl)
    (honce' PropertyId.receiveMax (by decide)) before
  have hmax := foldl_given kept (fun c => c.client.maxPacketSize) PropertyValue.long
    (fun c p h => by rw [kept, if_neg (by rw [h]; decide), if_neg (by rw [h]; decide), if_pos h])
    (fun c p h => by rw [kept]; split_ifs <;> rfl)
    (honce' PropertyId.maxPacketSize (by decide)) before
  have halias := foldl_given kept (fun c => c.client.topicAliasMax) PropertyValue.word
    (fun c p h => by
      rw [kept, if_neg (by rw [h]; decide), if_neg (by rw [h]; decide),
        if_neg (by rw [h]; decide), if_pos h])
    (fun c p h => by rw [kept]; split_ifs <;> rfl)
    (honce' PropertyId.topicAliasMax (by decide)) before
  have hrest : ∀ c, (ps.foldl kept c).server = c.server ∧
      (ps.foldl kept c).client.requestResponseInfo = c.client.requestResponseInfo ∧
      (ps.foldl kept c).client.requestProblemInfo = c.client.requestProblemInfo := by
    clear honce honce' hexpiry hreceive hmax halias
    induction ps with
    | nil => exact fun c => ⟨rfl, rfl, rfl⟩
    | cons p ps ih =>
      intro c
      rw [List.foldl_cons, (ih _).1, (ih _).2.1, (ih _).2.2, kept]
      split_ifs <;> exact ⟨rfl, rfl, rfl⟩
  obtain ⟨hserver, hresponse, hproblem⟩ := hrest before
  dsimp only
  rw [← hexpiry, ← hreceive, ← hmax, ← halias, ← hserver, ← hresponse, ← hproblem]

end ConnectUpdate

/-- What the client's own check accepts of a section, and what an update from it writes. -/
theorem update_of_validated {properties : List UInt8} {found : ConnectValidation}
    (h : validateConnectProperties properties = .ok found) (before : ConnectionProperties) :
    ∃ ps, properties = encodedSection ps ∧
      updateWithConnectProps properties before =
        (.ok (), { before with
          sessionExpiry :=
            (given ps PropertyId.sessionExpiry).elim before.sessionExpiry PropertyValue.long
          client := { before.client with
            receiveMax :=
              (given ps PropertyId.receiveMax).elim before.client.receiveMax PropertyValue.word
            maxPacketSize :=
              (given ps PropertyId.maxPacketSize).elim before.client.maxPacketSize PropertyValue.long
            topicAliasMax := (given ps PropertyId.topicAliasMax).elim before.client.topicAliasMax
              PropertyValue.word } }) ∧
      (∀ value, given ps PropertyId.receiveMax = some value → value.word ≠ 0) ∧
      (∀ value, given ps PropertyId.maxPacketSize = some value → value.long ≠ 0) ∧
      found.maxPacketSize = (given ps PropertyId.maxPacketSize).map PropertyValue.long := by
  rw [validateConnectProperties, except_bind_eq_ok] at h
  obtain ⟨last, hwalk, h⟩ := h
  rw [refuseIf_bind_eq_ok] at h
  obtain ⟨-, h⟩ := h
  cases h
  rw [validateWalk, refuseIf_bind_eq_ok, refuseIf_bind_eq_ok] at hwalk
  obtain ⟨hword, hvalid, hwalk⟩ := hwalk
  obtain ⟨ps, r', hwalked, hbytes⟩ := PropertyReader.walk_eq_ok typed_connectProperty hwalk
  have hchain := walksTo_of_walked hwalked
  obtain ⟨-, honce⟩ := once_of_walksTo hchain
  have hgood := forall_of_walksTo hchain
  refine ⟨ps, hbytes, ?_, fun value hvalue => ?_, fun value hvalue => ?_, ?_⟩
  · have hturns : (PropertyReader.new properties properties.length).remaining ≤
        properties.length := Nat.le_refl _
    obtain ⟨u', hrun, hlast⟩ := ConnectUpdate.walk_of_walked hwalked
      (u := { context := before }) (fun id hid => by cases hid) hturns
    rw [updateWithConnectProps, if_neg (not_or.mpr ⟨hword, hvalid⟩), hrun]
    change (Except.ok (), u'.context) = _
    rw [hlast, ConnectUpdate.foldl_kept honce]
  · obtain ⟨p, hp, hid, rfl⟩ := exists_of_given hvalue
    exact (hgood p hp).1 hid
  · obtain ⟨p, hp, hid, rfl⟩ := exists_of_given hvalue
    exact (hgood p hp).2 hid
  · rw [found_of_walksTo hchain]
    have hslot := foldl_given saysMaxPacketSize id (fun value => some value.long)
      (fun c p h => if_pos h) (fun c p h => if_neg h)
      (honce.imp fun h hsame hp => absurd (hp.symm.trans (h hsame)) (by decide)) none
    refine hslot.trans ?_
    cases given ps PropertyId.maxPacketSize <;> rfl

end RtosMqtt

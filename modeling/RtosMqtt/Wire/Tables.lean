import RtosMqtt.Wire.Sections

/-! # Tables of properties

A table that reads one property just when a rule allows it, walks a section just when the
section is a run of properties that the rule allows one after the other.
-/

namespace RtosMqtt

namespace PropertyReader

variable {α β : Type} {property : α → UInt8 → Reading α} {step : α → Property → α → Prop}

inductive WalksTo (step : α → Property → α → Prop) : α → List Property → α → Prop
  | nil (found : α) : WalksTo step found [] found
  | cons {found found' last : α} {p : Property} {ps : List Property} (hp : step found p found')
      (hps : WalksTo step found' ps last) : WalksTo step found (p :: ps) last

/-- The table reads a property just when the rule allows it. -/
def Tabled (property : α → UInt8 → Reading α) (step : α → Property → α → Prop) : Prop :=
  ∀ found id r found' r', property found id r = (.ok found', r') ↔
    ∃ p : Property, p.id = id ∧ r.Reads p.value.encoded r' ∧ step found p found'

section Walk

variable {turns : ℕ} {found last : α} {r r' : PropertyReader}

theorem walksTo_of_done (hinside : r.position ≤ r.bytes.length) (hdone : r.remaining = 0) :
    (last = found ∧ r' = r) ↔
      ∃ ps, r.Reads (encodedSection ps) r' ∧ r'.remaining = 0 ∧ WalksTo step found ps last := by
  constructor
  · rintro ⟨rfl, rfl⟩
    exact ⟨[], ⟨hinside, List.nil_prefix, Nat.zero_le _, rfl⟩, hdone, .nil _⟩
  · rintro ⟨ps, hreads, -, hwalks⟩
    cases hwalks with
    | nil => exact ⟨rfl, hreads.after⟩
    | @cons _ _ _ p ps _ _ =>
      have hroom := hreads.room
      have hpos := p.length_encoded_pos
      rw [encodedSection_cons, List.length_append] at hroom
      omega

theorem walkFrom_eq_ok (h : Tabled property step) (hturns : r.remaining ≤ turns)
    (hinside : r.position ≤ r.bytes.length) :
    walkFrom property turns found r = (.ok last, r') ↔
      ∃ ps, r.Reads (encodedSection ps) r' ∧ r'.remaining = 0 ∧ WalksTo step found ps last := by
  induction turns generalizing found r with
  | zero =>
    rw [← walksTo_of_done hinside (Nat.le_zero.mp hturns), walkFrom, Prog.pure_apply, Prod.mk.injEq,
      Except.ok.injEq, eq_comm (a := found), eq_comm (a := r)]
  | succ turns ih =>
    rw [walkFrom, Prog.get_bind_apply]
    split_ifs with hdone
    · rw [← walksTo_of_done hinside hdone, Prog.pure_apply, Prod.mk.injEq, Except.ok.injEq,
        eq_comm (a := found), eq_comm (a := r)]
    constructor
    · intro hrun
      obtain ⟨id, r₁, hid, hafterId⟩ := Prog.bind_eq_ok.mp hrun
      obtain ⟨found', r₂, hfound, hlast⟩ := Prog.bind_eq_ok.mp hafterId
      obtain ⟨p, rfl, hvalue, hp⟩ := (h found id r₁ found' r₂).mp hfound
      have hread : r.Reads p.encoded r₂ := by
        rw [Property.encoded, ← List.singleton_append, reads_append]
        exact ⟨r₁, propertyId_eq_ok.mp hid, hvalue⟩
      have hafter := hread.after
      have hpos := p.length_encoded_pos
      rw [ih (by rw [hafter]; dsimp only [past]; omega)
        (by rw [hafter]; exact hread.length_le)] at hlast
      obtain ⟨ps, hps, hzero, hwalks⟩ := hlast
      refine ⟨p :: ps, ?_, hzero, .cons hp hwalks⟩
      rw [encodedSection_cons, reads_append]
      exact ⟨r₂, hread, hps⟩
    · rintro ⟨ps, hreads, hzero, hwalks⟩
      cases hwalks with
      | nil =>
        rw [hreads.after] at hzero
        exact absurd hzero hdone
      | @cons _ found' _ p ps hp hps =>
        rw [encodedSection_cons, reads_append] at hreads
        obtain ⟨r₂, hread, hrest⟩ := hreads
        have hafter := hread.after
        have hpos := p.length_encoded_pos
        have hlength := hread.length_le
        rw [Property.encoded, ← List.singleton_append, reads_append] at hread
        obtain ⟨r₁, hid, hvalue⟩ := hread
        rw [Prog.bind_of_ok (propertyId_eq_ok.mpr hid), Prog.bind_of_ok ((h _ _ _ _ _).mpr ⟨p, rfl, hvalue, hp⟩)]
        exact (ih (by rw [hafter]; dsimp only [past]; omega) (by rw [hafter]; exact hlength)).mpr
          ⟨ps, hrest, hzero, hps⟩

theorem walk_eq_ok_iff (h : Tabled property step) {bytes : List UInt8} :
    walk property found bytes bytes.length = .ok last ↔
      ∃ ps, bytes = encodedSection ps ∧ WalksTo step found ps last := by
  have hiff (r' : PropertyReader) : walkFrom property bytes.length found (new bytes bytes.length) =
      (.ok last, r') ↔ ∃ ps, (new bytes bytes.length).Reads (encodedSection ps) r' ∧
        r'.remaining = 0 ∧ WalksTo step found ps last :=
    walkFrom_eq_ok h (Nat.le_refl _) (Nat.zero_le _)
  constructor
  · intro hwalk
    obtain ⟨ps, hreads, hzero, hwalks⟩ := (hiff _).mp (Prog.eq_of_fst_ok hwalk)
    refine ⟨ps, ?_, hwalks⟩
    have hnext : encodedSection ps <+: bytes := hreads.next
    have hroom : (encodedSection ps).length ≤ bytes.length := hreads.room
    rw [hreads.after] at hzero
    have hlength : bytes.length - (encodedSection ps).length = 0 := hzero
    exact (hnext.eq_of_length (by omega)).symm
  · rintro ⟨ps, rfl, hwalks⟩
    have hreads : (new (encodedSection ps) (encodedSection ps).length).Reads (encodedSection ps)
        ((new (encodedSection ps) (encodedSection ps).length).past (encodedSection ps).length) :=
      ⟨Nat.zero_le _, List.prefix_rfl, Nat.le_refl _, rfl⟩
    exact congrArg Prod.fst ((hiff _).mpr ⟨ps, hreads, Nat.sub_self _, hwalks⟩)

end Walk

structure ReadsAs (read : Reading β) (used : Bool) (wrap : β → PropertyValue) (w : Width) :
    Prop where
  eq_ok : ∀ {r b r'}, read r = (.ok b, r') ↔
    used = false ∧ (wrap b).Fits ∧ r.Reads (wrap b).encoded r'
  width : ∀ b, (wrap b).width = w
  all : ∀ value, value.width = w → ∃ b, value = wrap b

theorem readsAs_u8 (used : Bool) : ReadsAs (u8 used) used .byte .byte where
  eq_ok := u8_eq_ok.trans (and_congr_right fun _ => ⟨fun h => ⟨trivial, h⟩, And.right⟩)
  width _ := rfl
  all value h := by
    cases value with
    | byte b => exact ⟨b, rfl⟩
    | _ => cases h

theorem readsAs_u16 (used : Bool) : ReadsAs (u16 used) used .twoBytes .twoBytes where
  eq_ok := u16_eq_ok_iff.trans (and_congr_right fun _ => ⟨fun h => ⟨trivial, h⟩, And.right⟩)
  width _ := rfl
  all value h := by
    cases value with
    | twoBytes b => exact ⟨b, rfl⟩
    | _ => cases h

theorem readsAs_u32 (used : Bool) : ReadsAs (u32 used) used .fourBytes .fourBytes where
  eq_ok := u32_eq_ok_iff
  width _ := rfl
  all value h := by
    cases value with
    | fourBytes b => exact ⟨b, rfl⟩
    | _ => cases h

theorem readsAs_utf8 (used : Bool) : ReadsAs (utf8 used) used .string .string where
  eq_ok := utf8_eq_ok
  width _ := rfl
  all value h := by
    cases value with
    | string b => exact ⟨b, rfl⟩
    | _ => cases h

theorem readsAs_userProperty :
    ReadsAs userProperty false (fun strings => .pair strings.1 strings.2) .pair where
  eq_ok := userProperty_eq_ok.trans ⟨fun h => ⟨rfl, h⟩, And.right⟩
  width _ := rfl
  all value h := by
    cases value with
    | pair key value => exact ⟨(key, value), rfl⟩
    | _ => cases h

def Settles (f : β → Reading α) (good : β → Prop) (next : β → α) : Prop :=
  ∀ b r a r', f b r = (.ok a, r') ↔ good b ∧ a = next b ∧ r' = r

theorem settles_pure (next : β → α) : Settles (fun b => pure (next b)) (fun _ => True) next := by
  intro b r a r'
  dsimp only
  rw [Prog.pure_apply, Prod.mk.injEq, Except.ok.injEq, true_and, eq_comm (a := next b),
    eq_comm (a := r)]

theorem settles_refuse (bad : β → Prop) [DecidablePred bad] (e : ParseError) (next : β → α) :
    Settles (fun b => do Prog.refuse (bad b) e; pure (next b)) (fun b => ¬ bad b) next := by
  intro b r a r'
  dsimp only
  rw [Prog.refuse_bind_eq_ok, Prog.pure_apply, Prod.mk.injEq, Except.ok.injEq,
    eq_comm (a := next b), eq_comm (a := r)]

theorem ReadsAs.row {read : Reading β} {used : Bool} {wrap : β → PropertyValue} {width : Width}
    {f : β → Reading α} {good : β → Prop} {next : β → α} {id : UInt8} {r r' : PropertyReader}
    {a : α} (h : ReadsAs read used wrap width) (hid : widthOf id = some width)
    (hf : Settles f good next) :
    (read >>= f) r = (.ok a, r') ↔ used = false ∧ ∃ p : Property, p.id = id ∧
      r.Reads p.value.encoded r' ∧ ∃ b, p.value = wrap b ∧ good b ∧ a = next b := by
  rw [Prog.bind_eq_ok]
  constructor
  · rintro ⟨b, r₁, hread, hrest⟩
    obtain ⟨hused, hfits, hreads⟩ := h.eq_ok.mp hread
    obtain ⟨hgood, ha, rfl⟩ := (hf b r₁ a r').mp hrest
    exact ⟨hused, ⟨id, wrap b, by rw [hid, h.width], hfits⟩, rfl, hreads, b, rfl, hgood, ha⟩
  · rintro ⟨hused, p, rfl, hreads, b, hvalue, hgood, ha⟩
    have hfits := p.fits
    rw [hvalue] at hfits hreads
    exact ⟨b, r', h.eq_ok.mpr ⟨hused, hfits, hreads⟩, (hf b r' a r').mpr ⟨hgood, ha, rfl⟩⟩

/-- What one table reads another reads too, and stops at the same place. -/
def Covers (R : α → β → Prop) (property : α → UInt8 → Reading α) (other : β → UInt8 → Reading β) :
    Prop :=
  ∀ {found found' id r next r'}, R found found' → property found id r = (.ok next, r') →
    ∃ next', other found' id r = (.ok next', r') ∧ R next next'

theorem Covers.walkFrom {R : α → β → Prop} {other : β → UInt8 → Reading β}
    (h : Covers R property other) {turns : ℕ} {found last : α} {found' : β} {r r' : PropertyReader}
    (hR : R found found') (hrun : walkFrom property turns found r = (.ok last, r')) :
    ∃ last', PropertyReader.walkFrom other turns found' r = (.ok last', r') ∧ R last last' := by
  induction turns generalizing found found' r with
  | zero =>
    cases hrun
    exact ⟨found', rfl, hR⟩
  | succ turns ih =>
    rw [PropertyReader.walkFrom, Prog.get_bind_apply] at hrun ⊢
    split_ifs at hrun ⊢ with hdone
    · cases hrun
      exact ⟨found', rfl, hR⟩
    obtain ⟨id, r₁, hid, hafterId⟩ := Prog.bind_eq_ok.mp hrun
    obtain ⟨next, r₂, hnext, hlast⟩ := Prog.bind_eq_ok.mp hafterId
    obtain ⟨next', hnext', hR'⟩ := h hR hnext
    obtain ⟨last', hlast', hend⟩ := ih hR' hlast
    refine ⟨last', ?_, hend⟩
    rw [Prog.bind_of_ok hid, Prog.bind_of_ok hnext']
    exact hlast'

theorem Covers.walk {R : α → β → Prop} {other : β → UInt8 → Reading β} (h : Covers R property other)
    {found last : α} {found' : β} {bytes : List UInt8} {propertyLength : ℕ} (hR : R found found')
    (hwalk : walk property found bytes propertyLength = .ok last) :
    ∃ last', PropertyReader.walk other found' bytes propertyLength = .ok last' ∧ R last last' := by
  obtain ⟨last', hrun, hend⟩ := h.walkFrom hR (Prog.eq_of_fst_ok hwalk)
  exact ⟨last', congrArg Prod.fst hrun, hend⟩

theorem covers_of_eq_ok {other : α → UInt8 → Reading α}
    (h : ∀ found id r next r', property found id r = (.ok next, r') →
      other found id r = (.ok next, r')) : Covers Eq property other := by
  rintro found _ id r next r' rfl hrun
  exact ⟨next, h found id r next r' hrun, rfl⟩

end PropertyReader

end RtosMqtt

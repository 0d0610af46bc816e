import RtosMqtt.Client.Acceptance
import RtosMqtt.Client.Assembly
import RtosMqtt.Client.Opened

/-! # Packets gathered from where their parts lie

A CONNECT, a DISCONNECT and an acknowledgement with properties are offered as vectors,
and each has a serializer that writes the same packet into a buffer. The vectors make
the serializer's bytes, the store is given the same vectors, and the bytes a sender asks
for are the size of the packet.
-/

namespace RtosMqtt

theorem flatten_optional (bytes : List UInt8) :
    (if bytes = [] then [] else [bytes]).flatten = bytes := by
  split_ifs with hnil
  · exact hnil.symm
  · exact List.flatten_singleton

namespace Client

theorem flatten_sectionParts {properties : List UInt8} (h : properties.length ≤ maxRemainingLength) :
    (sectionParts properties).flatten = sized properties := by
  obtain ⟨hwidth, hdigits⟩ := encodeVariableLength_spec h
  rw [sectionParts, hwidth, hdigits, List.flatten_append, flatten_optional, List.flatten_singleton, sized]

theorem flatten_stringParts {body : List UInt8} (h : body.length ≤ u16Max) :
    (stringParts body).flatten = prefixed body := by
  rw [stringParts, List.flatten_append, flatten_optional, List.flatten_singleton, Nat.min_eq_left h,
    prefixed]

theorem flatten_stringOption {body : Option (List UInt8)}
    (h : ∀ bytes, body = some bytes → bytes.length ≤ u16Max) :
    (body.elim [] stringParts).flatten = body.elim [] prefixed := by
  cases body with
  | none => rfl
  | some bytes => exact flatten_stringParts (h bytes rfl)

theorem flatten_connectParts {connect : Connect} (h : connect.Fits) :
    (connectParts connect).flatten = connectFieldBytes connect := by
  have hwill : (connect.will.elim [] willParts).flatten = connect.will.elim [] willBytes := by
    cases hsome : connect.will with
    | none => rfl
    | some will =>
      obtain ⟨htopic, hpayload, hproperties⟩ := h.will will hsome
      rw [Option.elim_some, Option.elim_some, willParts, List.flatten_append, List.flatten_append,
        flatten_sectionParts hproperties, flatten_stringParts htopic, flatten_stringParts hpayload,
        willBytes]
  rw [connectParts, List.flatten_append, List.flatten_append, List.flatten_append,
    List.flatten_append, flatten_sectionParts h.properties, flatten_stringParts h.identifier, hwill,
    flatten_stringOption h.username, flatten_stringOption h.password, connectFieldBytes]

variable {W α β : Type} {env : Environment W} {packet : List UInt8} {total : ℕ} {s : Sys W}

/-- A sender stops with nothing offered, or because the store does not take the packet; otherwise it
offers the vectors of the packet, which are what the store was given, and goes on when the bytes it
asks for went out. -/
inductive Sends (env : Environment W) (packet : List UInt8) (total : ℕ) (key : Option UInt32)
    (p : Client W Unit) (s : Sys W) : Prop
  | stops (e : ClientError) (t : Sys W) (hlog : t.log = s.log) (h : p s = (.error (.error e), t))
  | unkept (parts : List (List UInt8)) (k : UInt32) (e : ClientError) (t : Sys W)
      (hkey : key = some k) (hparts : parts.flatten = packet)
      (hlog : t.log = s.log ++ [.stored k parts false]) (h : p s = (.error (.error e), t))
  | offers (parts : List (List UInt8)) (after : Client W Unit) (t : Sys W)
      (hparts : parts.flatten = packet)
      (hlog : t.log = s.log ++ (key.map fun k => .stored k parts true).toList)
      (h : p s = (do
        let outcome ← sendVectors env parts
        sentWhole total outcome
        after) t)

def Silent (p : Client W α) (s : Sys W) : Prop := (p s).2.log = s.log ∧ (p s).1 ≠ .error .blocked

theorem Checks.silent {p : Client W α} (h : Checks p) (s : Sys W) : Silent p s := by
  rcases h s with ⟨e, he⟩ | ⟨a, ha⟩
  · rw [Silent, he]
    exact ⟨rfl, by simp⟩
  · rw [Silent, ha]
    exact ⟨rfl, by simp⟩

theorem Silent.when {c : Prop} [Decidable c] {p : Client W Unit} (h : Silent p s) :
    Silent (Prog.when c p) s := by
  unfold Prog.when
  split_ifs
  · exact h
  · exact ⟨rfl, by simp⟩

theorem Silent.bind_cases {p : Client W α} (hp : Silent p s) (f : α → Client W β) :
    (∃ e t, t.log = s.log ∧ (p >>= f) s = (.error (.error e), t)) ∨
      ∃ a t, t.log = s.log ∧ p s = (.ok a, t) ∧ (p >>= f) s = f a t := by
  obtain ⟨hlog, hends⟩ := hp
  rcases hrun : p s with ⟨(e | _) | a, t⟩
  · rw [hrun] at hlog
    exact .inl ⟨e, t, hlog, Prog.bind_of_error hrun⟩
  · rw [hrun] at hends
    exact absurd rfl hends
  · rw [hrun] at hlog
    exact .inr ⟨a, t, hlog, rfl, Prog.bind_of_ok hrun⟩

theorem Silent.bind {p : Client W α} {f : α → Client W β} (hp : Silent p s)
    (hf : ∀ a t, p s = (.ok a, t) → Silent (f a) t) : Silent (p >>= f) s := by
  rcases hp.bind_cases f with ⟨e, t, hlog, hrun⟩ | ⟨a, t, hlog, ha, hrun⟩
  · rw [Silent, hrun]
    exact ⟨hlog, by simp⟩
  · obtain ⟨hafter, hends⟩ := hf a t ha
    rw [Silent, hrun]
    exact ⟨hafter.trans hlog, hends⟩

theorem Sends.of_run {key : Option UInt32} {p q : Client W Unit} {t : Sys W}
    (hlog : t.log = s.log) (h : p s = q t) (hq : Sends env packet total key q t) :
    Sends env packet total key p s := by
  cases hq with
  | stops e u hu hrun => exact .stops e u (hu.trans hlog) (h.trans hrun)
  | unkept parts k e u hkey hparts hu hrun =>
    exact .unkept parts k e u hkey hparts (by rw [hu, hlog]) (h.trans hrun)
  | offers parts after u hparts hu hrun =>
    exact .offers parts after u hparts (by rw [hu, hlog]) (h.trans hrun)

theorem Sends.bind {key : Option UInt32} {p : Client W α} {f : α → Client W Unit} (hp : Silent p s)
    (hf : ∀ a t, p s = (.ok a, t) → Sends env packet total key (f a) t) :
    Sends env packet total key (p >>= f) s := by
  rcases hp.bind_cases f with ⟨e, t, hlog, hrun⟩ | ⟨a, t, hlog, ha, hrun⟩
  · exact .stops e t hlog hrun
  · exact .of_run hlog hrun (hf a t ha)

theorem Sends.before {key : Option UInt32} {p : Client W Unit}
    (h : Sends env packet total key p s) (f : Unit → Client W Unit) :
    Sends env packet total key (p >>= f) s := by
  cases h with
  | stops e t hlog hrun => exact .stops e t hlog (Prog.bind_of_error hrun)
  | unkept parts k e t hkey hparts hlog hrun =>
    exact .unkept parts k e t hkey hparts hlog (Prog.bind_of_error hrun)
  | offers parts after t hparts hlog hrun =>
    refine .offers parts (after >>= f) t hparts hlog ?_
    rw [Prog.bind_apply, hrun, ← Prog.bind_apply, Prog.bind_assoc]
    simp only [Prog.bind_assoc]

end Client

end RtosMqtt

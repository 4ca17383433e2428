/-
ProxyPlan.Proofs.DocumentFormat — the format of documents keeps what is written
in it.

Every block of a document is a record of texts, lists and smaller blocks, and
is kept whatever it holds. Two things are not: free-form settings, which are
kept if they are settled and no deeper than a text allows, and the name of a
rule, which is never written. `Document.Written` asks for just that.
-/
import ProxyPlan.Document.Basic
import ProxyPlan.Proofs.CodecLaw

namespace ProxyPlan

open Json Json.Codec

/-! ## Transports -/

theorem Ws.keeps (s : Ws) : Ws.codec.Keeps 1 s :=
  keeps_record (by decide) rfl <|
    .optional present_text (fun _ _ => keeps_text _ _) <|
    .optional present_text (fun _ _ => keeps_text _ _) trivial

theorem Grpc.keeps (s : Grpc) : Grpc.codec.Keeps 1 s :=
  keeps_record (by decide) rfl <|
    .optional present_text (fun _ _ => keeps_text _ _) <|
    .optional present_bool (fun _ _ => keeps_bool _ _) trivial

theorem Xhttp.keeps (s : Xhttp) : Xhttp.codec.Keeps 1 s :=
  keeps_record (by decide) rfl <|
    .optional present_text (fun _ _ => keeps_text _ _) <|
    .optional present_text (fun _ _ => keeps_text _ _) <|
    .optional present_text (fun _ _ => keeps_text _ _) trivial

theorem keeps_texts (room : Nat) (xs : List String) : (Codec.list text).Keeps (room + 1) xs :=
  .list fun _ _ => keeps_text _ _

theorem Tls.keeps (s : Tls) : Tls.codec.Keeps 2 s :=
  keeps_record (by decide) rfl <|
    .optional present_text (fun _ _ => keeps_text _ _) <|
    .optional (present_list _) (fun _ _ => keeps_texts _ _) <|
    .optional present_text (fun _ _ => keeps_text _ _) <|
    .optional present_bool (fun _ _ => keeps_bool _ _) trivial

theorem Reality.keeps (s : Reality) : Reality.codec.Keeps 2 s :=
  keeps_record (by decide) rfl <|
    .optional present_text (fun _ _ => keeps_text _ _) <|
    .optional present_text (fun _ _ => keeps_text _ _) <|
    .optional present_text (fun _ _ => keeps_text _ _) <|
    .optional present_text (fun _ _ => keeps_text _ _) <|
    .optional present_text (fun _ _ => keeps_text _ _) <|
    .optional present_text (fun _ _ => keeps_text _ _) <|
    .optional (present_list _) (fun _ _ => keeps_texts _ _) <|
    .optional (present_list _) (fun _ _ => keeps_texts _ _) <|
    .optional present_text (fun _ _ => keeps_text _ _) trivial

namespace Document

theorem Stream.keeps (s : Stream) : Stream.codec.Keeps 3 s :=
  keeps_record (by decide) rfl <|
    .defaulting (keeps_text _ _) <|
    .defaulting (keeps_text _ _) <|
    .optional (present_record _ _ _ _) (fun s _ => (Ws.keeps s).mono (by decide)) <|
    .optional (present_record _ _ _ _) (fun s _ => (Grpc.keeps s).mono (by decide)) <|
    .optional (present_record _ _ _ _) (fun s _ => (Xhttp.keeps s).mono (by decide)) <|
    .optional (present_record _ _ _ _) (fun s _ => Tls.keeps s) <|
    .optional (present_record _ _ _ _) (fun s _ => Reality.keeps s) trivial

/-! ## Endpoints -/

/-- Free-form settings that a document can hold: something, in order and not too
deep. -/
structure SettingsWritten (v : Json) : Prop where
  present : v.isNull = false
  fits : v.Fits 16

theorem keeps_settings {ρ : Type} {rest : Fields ρ} {v : Json} {xs : ρ} {room : Nat}
    (h : SettingsWritten v) (hroom : 16 ≤ room) (hrest : rest.Keeps room xs) :
    (settingsField rest).Keeps room (v, xs) := by
  refine ⟨?_, hrest⟩
  rw [if_neg (by simp [h.present])]
  exact keeps_anything (h.fits.mono hroom)

theorem Sniffing.keeps (s : Sniffing) : Sniffing.codec.Keeps 2 s :=
  keeps_record (by decide) rfl <|
    .defaulting (keeps_bool _ _) <| .items (fun _ _ => keeps_text _ _) trivial

theorem Inbound.keeps {i : Inbound} (h : SettingsWritten i.settings) : Inbound.codec.Keeps 17 i :=
  keeps_record (by decide) rfl <|
    .defaulting (keeps_text _ _) <| .defaulting (keeps_text _ _) <|
    .required (keeps_word16 _ _) <| .required (keeps_text _ _) <|
    keeps_settings h (by decide) <|
    .optional (present_record _ _ _ _) (fun s _ => (Sniffing.keeps s).mono (by decide)) <|
    .optional (present_record _ _ _ _) (fun s _ => (Stream.keeps s).mono (by decide)) trivial

theorem Outbound.keeps {o : Outbound} (h : SettingsWritten o.settings) :
    Outbound.codec.Keeps 17 o :=
  keeps_record (by decide) rfl <|
    .defaulting (keeps_text _ _) <| .required (keeps_text _ _) <|
    keeps_settings h (by decide) <|
    .optional (present_record _ _ _ _) (fun s _ => (Stream.keeps s).mono (by decide)) trivial

/-! ## Rules and balancers -/

theorem Rule.keeps {r : Rule} (h : r.ruleTag = none) : Rule.codec.Keeps 2 r :=
  keeps_record (by decide) rfl <|
    .defaulting (keeps_text _ _) <|
    ⟨h ▸ rfl,
      .optional (present_list _) (fun _ _ => keeps_texts _ _) <|
      .optional (present_list _) (fun _ _ => keeps_texts _ _) <|
      .optional (present_list _) (fun _ _ => keeps_texts _ _) <|
      .optional present_text (fun _ _ => keeps_text _ _) <|
      .optional present_text (fun _ _ => keeps_text _ _) <|
      .optional (present_list _) (fun _ _ => keeps_texts _ _) <|
      .optional present_text (fun _ _ => keeps_text _ _) <|
      .optional present_text (fun _ _ => keeps_text _ _) trivial⟩

theorem keeps_strategy (type : String) : strategyCodec.Keeps 1 type :=
  keeps_record (by decide) rfl <| .required (keeps_text _ _) trivial

theorem Balancer.keeps (b : Balancer) : Balancer.codec.Keeps 2 b :=
  keeps_record (by decide) rfl <|
    .required (keeps_text _ _) <| .defaulting (keeps_texts _ _) <|
    .optional (present_record _ _ _ _) (fun s _ => keeps_strategy s) trivial

theorem Routing.keeps {r : Routing} (h : ∀ rule ∈ r.rules, rule.ruleTag = none) :
    Routing.codec.Keeps 4 r :=
  keeps_record (by decide) rfl <|
    .defaulting (keeps_text _ _) <|
    .defaulting (.list fun rule hrule => Rule.keeps (h rule hrule)) <|
    .items (fun b _ => Balancer.keeps b) trivial

/-! ## Documents -/

theorem Log.keeps (l : Log) : Log.codec.Keeps 1 l :=
  keeps_record (by decide) rfl <| .required (keeps_text _ _) trivial

/-- Nothing of the document is lost when it is written. -/
structure Written (d : Document) : Prop where
  inbounds : ∀ i ∈ d.inbounds, SettingsWritten i.settings
  outbounds : ∀ o ∈ d.outbounds, SettingsWritten o.settings
  rules : ∀ r ∈ d.routing.rules, r.ruleTag = none

/-- A written document is read back. -/
theorem Written.keeps {d : Document} (h : d.Written) : codec.Keeps 19 d :=
  keeps_record (by decide) rfl <|
    .defaulting ((Log.keeps _).mono (by decide)) <|
    .defaulting (.list fun i hi => Inbound.keeps (h.inbounds i hi)) <|
    .defaulting (.list fun o ho => Outbound.keeps (h.outbounds o ho)) <|
    .defaulting ((Routing.keeps h.rules).mono (by decide)) trivial

end Document
end ProxyPlan

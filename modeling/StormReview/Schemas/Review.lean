import StormReview.Zod.Schema

/-! The reviewer's structured output: its fields, its schema and its plain form. -/
namespace StormReview
open Js Zod

inductive EvidenceSource where
  | wording | weather | report | customer | provenance | precedent
  deriving DecidableEq

instance : Enum EvidenceSource where
  options := [.wording, .weather, .report, .customer, .provenance, .precedent]
  text
    | .wording => lit "wording"
    | .weather => lit "weather"
    | .report => lit "report"
    | .customer => lit "customer"
    | .provenance => lit "provenance"
    | .precedent => lit "precedent"
  mem_options a := by cases a <;> decide
  text_inj a b := by cases a <;> cases b <;> decide

/-- The findings of Q1. -/
inductive StormConditions where
  | yes | no | borderline | unknown
  deriving DecidableEq

instance : Enum StormConditions where
  options := [.yes, .no, .borderline, .unknown]
  text
    | .yes => lit "yes"
    | .no => lit "no"
    | .borderline => lit "borderline"
    | .unknown => lit "unknown"
  mem_options a := by cases a <;> decide
  text_inj a b := by cases a <;> cases b <;> decide

/-- The findings of Q2. -/
inductive DamageConsistent where
  | yes | no | unknown
  deriving DecidableEq

instance : Enum DamageConsistent where
  options := [.yes, .no, .unknown]
  text
    | .yes => lit "yes"
    | .no => lit "no"
    | .unknown => lit "unknown"
  mem_options a := by cases a <;> decide
  text_inj a b := by cases a <;> cases b <;> decide

/-- The findings of Q3. -/
inductive MainCause where
  | storm | preExisting | mixed | unknown
  deriving DecidableEq

instance : Enum MainCause where
  options := [.storm, .preExisting, .mixed, .unknown]
  text
    | .storm => lit "storm"
    | .preExisting => lit "pre_existing"
    | .mixed => lit "mixed"
    | .unknown => lit "unknown"
  mem_options a := by cases a <;> decide
  text_inj a b := by cases a <;> cases b <;> decide

/-- A conclusion about a recommendation, never an action. -/
inductive Verdict where
  | agreeDecline | disagreeDecline | agreeCash | disagreeCash | cannotDetermine
  deriving DecidableEq

instance : Enum Verdict where
  options := [.agreeDecline, .disagreeDecline, .agreeCash, .disagreeCash, .cannotDetermine]
  text
    | .agreeDecline => lit "agree_decline"
    | .disagreeDecline => lit "disagree_decline"
    | .agreeCash => lit "agree_cash"
    | .disagreeCash => lit "disagree_cash"
    | .cannotDetermine => lit "cannot_determine"
  mem_options a := by cases a <;> decide
  text_inj a b := by cases a <;> cases b <;> decide

inductive Confidence where
  | high | medium | low
  deriving DecidableEq

instance : Enum Confidence where
  options := [.high, .medium, .low]
  text
    | .high => lit "high"
    | .medium => lit "medium"
    | .low => lit "low"
  mem_options a := by cases a <;> decide
  text_inj a b := by cases a <;> cases b <;> decide

inductive TemporaryRepair where
  | likely | unlikely | notApplicable
  deriving DecidableEq

instance : Enum TemporaryRepair where
  options := [.likely, .unlikely, .notApplicable]
  text
    | .likely => lit "likely"
    | .unlikely => lit "unlikely"
    | .notApplicable => lit "n/a"
  mem_options a := by cases a <;> decide
  text_inj a b := by cases a <;> cases b <;> decide

inductive AccidentalDamage where
  | consider | notApplicable
  deriving DecidableEq

instance : Enum AccidentalDamage where
  options := [.consider, .notApplicable]
  text
    | .consider => lit "consider"
    | .notApplicable => lit "n/a"
  mem_options a := by cases a <;> decide
  text_inj a b := by cases a <;> cases b <;> decide

inductive CashCriteria where
  | yes | no | notApplicable
  deriving DecidableEq

instance : Enum CashCriteria where
  options := [.yes, .no, .notApplicable]
  text
    | .yes => lit "yes"
    | .no => lit "no"
    | .notApplicable => lit "n/a"
  mem_options a := by cases a <;> decide
  text_inj a b := by cases a <;> cases b <;> decide

inductive EscalateTo where
  | counterFraud | technicalLead | complaints
  deriving DecidableEq

instance : Enum EscalateTo where
  options := [.counterFraud, .technicalLead, .complaints]
  text
    | .counterFraud => lit "counter_fraud"
    | .technicalLead => lit "technical_lead"
    | .complaints => lit "complaints"
  mem_options a := by cases a <;> decide
  text_inj a b := by cases a <;> cases b <;> decide

structure Evidence where
  source : EvidenceSource
  ref : Text
  quote : Text
  deriving DecidableEq

structure Finding (φ : Type) where
  finding : φ
  evidence : List Evidence
  gaps : List Text
  deriving DecidableEq

structure AdjusterReportQuality where
  photosOfCorrectProperty : Bool
  photosDated : Bool
  priorRepairsDocumented : Bool
  causationReasoned : Bool
  note : Text
  deriving DecidableEq

structure CarveOuts where
  temporaryRepairPayable : TemporaryRepair
  accidentalDamageInternal : AccidentalDamage
  deriving DecidableEq

structure ConsumerDutyChecks where
  vulnerabilityConsidered : Bool
  cashCriteriaMet : CashCriteria
  reasonsExplainable : Bool
  deriving DecidableEq

structure Escalate where
  required : Bool
  toTargets : List EscalateTo
  why : Text
  deriving DecidableEq

structure Review where
  wordingVersion : Text
  wordingNote : Text
  q1StormConditions : Finding StormConditions
  q2DamageConsistent : Finding DamageConsistent
  q3MainCause : Finding MainCause
  adjusterReportQuality : AdjusterReportQuality
  verdict : Verdict
  confidence : Confidence
  confidenceDrivers : List Text
  wouldChangeMind : List Text
  carveOuts : CarveOuts
  consumerDutyChecks : ConsumerDutyChecks
  escalate : Escalate
  citedDrns : List Text
  draftParagraph : Text
  deriving DecidableEq

def evidenceSchema : Parser Evidence := object fun v =>
  Evidence.mk <$> field "source" enum v <*> field "ref" string v <*> field "quote" string v

def findingSchema {φ : Type} [Enum φ] : Parser (Finding φ) := object fun v =>
  Finding.mk <$> field "finding" enum v <*> field "evidence" (array evidenceSchema) v <*>
    field "gaps" (array string) v

def adjusterReportQualitySchema : Parser AdjusterReportQuality := object fun v =>
  AdjusterReportQuality.mk <$> field "photosOfCorrectProperty" boolean v <*>
    field "photosDated" boolean v <*> field "priorRepairsDocumented" boolean v <*>
    field "causationReasoned" boolean v <*> field "note" string v

def carveOutsSchema : Parser CarveOuts := object fun v =>
  CarveOuts.mk <$> field "temporaryRepairPayable" enum v <*>
    field "accidentalDamageInternal" enum v

def consumerDutyChecksSchema : Parser ConsumerDutyChecks := object fun v =>
  ConsumerDutyChecks.mk <$> field "vulnerabilityConsidered" boolean v <*>
    field "cashCriteriaMet" enum v <*> field "reasonsExplainable" boolean v

def escalateSchema : Parser Escalate := object fun v =>
  Escalate.mk <$> field "required" boolean v <*> field "to" (array enum) v <*>
    field "why" string v

/-- `ReviewSchema.safeParse`. Free text and lists carry no bounds here. -/
def reviewSchema : Parser Review := object fun v =>
  Review.mk <$> field "wordingVersion" string v <*> field "wordingNote" string v <*>
    field "q1_stormConditions" findingSchema v <*>
    field "q2_damageConsistent" findingSchema v <*>
    field "q3_mainCause" findingSchema v <*>
    field "adjusterReportQuality" adjusterReportQualitySchema v <*>
    field "verdict" enum v <*> field "confidence" enum v <*>
    field "confidenceDrivers" (array string) v <*> field "wouldChangeMind" (array string) v <*>
    field "carveOuts" carveOutsSchema v <*>
    field "consumerDutyChecks" consumerDutyChecksSchema v <*>
    field "escalate" escalateSchema v <*> field "citedDrns" (array string) v <*>
    field "draftParagraph" string v

/-- `REVIEW_VERDICTS`. -/
def reviewVerdicts : List Text :=
  [lit "agree_decline", lit "disagree_decline", lit "agree_cash", lit "disagree_cash",
    lit "cannot_determine"]

def draftParagraphMax : Nat := 600
def confidenceDriversMax : Nat := 4
def wouldChangeMindMax : Nat := 3

/-! A review as the plain object it is at run time. -/

def word {α : Type} [Enum α] (a : α) : Value := .str (Enum.text a)

def texts (ts : List Text) : Value := .arr (ts.map .str)

def Evidence.toJs (e : Evidence) : Value :=
  .obj [(lit "source", word e.source), (lit "ref", .str e.ref), (lit "quote", .str e.quote)]

def Finding.toJs {φ : Type} [Enum φ] (f : Finding φ) : Value :=
  .obj [(lit "finding", word f.finding), (lit "evidence", .arr (f.evidence.map Evidence.toJs)),
    (lit "gaps", texts f.gaps)]

def AdjusterReportQuality.toJs (q : AdjusterReportQuality) : Value :=
  .obj [(lit "photosOfCorrectProperty", .bool q.photosOfCorrectProperty),
    (lit "photosDated", .bool q.photosDated),
    (lit "priorRepairsDocumented", .bool q.priorRepairsDocumented),
    (lit "causationReasoned", .bool q.causationReasoned), (lit "note", .str q.note)]

def CarveOuts.toJs (c : CarveOuts) : Value :=
  .obj [(lit "temporaryRepairPayable", word c.temporaryRepairPayable),
    (lit "accidentalDamageInternal", word c.accidentalDamageInternal)]

def ConsumerDutyChecks.toJs (c : ConsumerDutyChecks) : Value :=
  .obj [(lit "vulnerabilityConsidered", .bool c.vulnerabilityConsidered),
    (lit "cashCriteriaMet", word c.cashCriteriaMet),
    (lit "reasonsExplainable", .bool c.reasonsExplainable)]

def Escalate.toJs (e : Escalate) : Value :=
  .obj [(lit "required", .bool e.required), (lit "to", .arr (e.toTargets.map word)),
    (lit "why", .str e.why)]

def Review.toJs (r : Review) : Value :=
  .obj [(lit "wordingVersion", .str r.wordingVersion), (lit "wordingNote", .str r.wordingNote),
    (lit "q1_stormConditions", r.q1StormConditions.toJs),
    (lit "q2_damageConsistent", r.q2DamageConsistent.toJs),
    (lit "q3_mainCause", r.q3MainCause.toJs),
    (lit "adjusterReportQuality", r.adjusterReportQuality.toJs),
    (lit "verdict", word r.verdict), (lit "confidence", word r.confidence),
    (lit "confidenceDrivers", texts r.confidenceDrivers),
    (lit "wouldChangeMind", texts r.wouldChangeMind), (lit "carveOuts", r.carveOuts.toJs),
    (lit "consumerDutyChecks", r.consumerDutyChecks.toJs), (lit "escalate", r.escalate.toJs),
    (lit "citedDrns", texts r.citedDrns), (lit "draftParagraph", .str r.draftParagraph)]

/-! The schema reads back the plain form of every review. -/

@[simp] theorem enum_word {α : Type} [Enum α] (a : α) : enum (word a) = .ok a := enum_text a

theorem enum_words {α : Type} [Enum α] (as : List α) :
    array enum (.arr (as.map word)) = .ok as := array_map fun a _ => enum_word a

@[simp] theorem string_texts (ts : List Text) : array string (texts ts) = .ok ts :=
  array_map fun t _ => string_str t

theorem evidenceSchema_toJs (e : Evidence) : evidenceSchema e.toJs = .ok e := by
  have hs : field "source" enum e.toJs = .ok e.source := field_of_get rfl (enum_word _)
  have hr : field "ref" string e.toJs = .ok e.ref := field_of_get rfl rfl
  have hq : field "quote" string e.toJs = .ok e.quote := field_of_get rfl rfl
  rw [evidenceSchema, object_of_obj _ e.toJs ⟨_, rfl⟩, hs, hr, hq]
  rfl

theorem findingSchema_toJs {φ : Type} [Enum φ] (f : Finding φ) :
    findingSchema f.toJs = .ok f := by
  have hf : field "finding" enum f.toJs = .ok f.finding := field_of_get rfl (enum_word _)
  have he : field "evidence" (array evidenceSchema) f.toJs = .ok f.evidence :=
    field_of_get rfl (array_map fun e _ => evidenceSchema_toJs e)
  have hg : field "gaps" (array string) f.toJs = .ok f.gaps := field_of_get rfl (string_texts _)
  rw [findingSchema, object_of_obj _ f.toJs ⟨_, rfl⟩, hf, he, hg]
  rfl

theorem adjusterReportQualitySchema_toJs (q : AdjusterReportQuality) :
    adjusterReportQualitySchema q.toJs = .ok q := by
  have hb (key : String) (b : Bool) (h : q.toJs.get (lit key) = .bool b) :
      field key boolean q.toJs = .ok b := field_of_get h rfl
  have hn : field "note" string q.toJs = .ok q.note := field_of_get rfl rfl
  rw [adjusterReportQualitySchema, object_of_obj _ q.toJs ⟨_, rfl⟩, hb "photosOfCorrectProperty" _ rfl,
    hb "photosDated" _ rfl, hb "priorRepairsDocumented" _ rfl, hb "causationReasoned" _ rfl, hn]
  rfl

theorem carveOutsSchema_toJs (c : CarveOuts) : carveOutsSchema c.toJs = .ok c := by
  have ht : field "temporaryRepairPayable" enum c.toJs = .ok c.temporaryRepairPayable :=
    field_of_get rfl (enum_word _)
  have ha : field "accidentalDamageInternal" enum c.toJs = .ok c.accidentalDamageInternal :=
    field_of_get rfl (enum_word _)
  rw [carveOutsSchema, object_of_obj _ c.toJs ⟨_, rfl⟩, ht, ha]
  rfl

theorem consumerDutyChecksSchema_toJs (c : ConsumerDutyChecks) :
    consumerDutyChecksSchema c.toJs = .ok c := by
  have hv : field "vulnerabilityConsidered" boolean c.toJs = .ok c.vulnerabilityConsidered :=
    field_of_get rfl rfl
  have hm : field "cashCriteriaMet" enum c.toJs = .ok c.cashCriteriaMet :=
    field_of_get rfl (enum_word _)
  have hr : field "reasonsExplainable" boolean c.toJs = .ok c.reasonsExplainable :=
    field_of_get rfl rfl
  rw [consumerDutyChecksSchema, object_of_obj _ c.toJs ⟨_, rfl⟩, hv, hm, hr]
  rfl

theorem escalateSchema_toJs (e : Escalate) : escalateSchema e.toJs = .ok e := by
  have hr : field "required" boolean e.toJs = .ok e.required := field_of_get rfl rfl
  have ht : field "to" (array enum) e.toJs = .ok e.toTargets := field_of_get rfl (enum_words _)
  have hw : field "why" string e.toJs = .ok e.why := field_of_get rfl rfl
  rw [escalateSchema, object_of_obj _ e.toJs ⟨_, rfl⟩, hr, ht, hw]
  rfl

/-- A review in plain form is schema-valid, and what the schema reads is that review. -/
theorem reviewSchema_toJs (r : Review) : reviewSchema r.toJs = .ok r := by
  have hstr (key : String) (t : Text) (h : r.toJs.get (lit key) = .str t) :
      field key string r.toJs = .ok t := field_of_get h rfl
  have hlist (key : String) (ts : List Text) (h : r.toJs.get (lit key) = texts ts) :
      field key (array string) r.toJs = .ok ts := field_of_get h (string_texts ts)
  have h1 : field "q1_stormConditions" findingSchema r.toJs = .ok r.q1StormConditions :=
    field_of_get rfl (findingSchema_toJs _)
  have h2 : field "q2_damageConsistent" findingSchema r.toJs = .ok r.q2DamageConsistent :=
    field_of_get rfl (findingSchema_toJs _)
  have h3 : field "q3_mainCause" findingSchema r.toJs = .ok r.q3MainCause :=
    field_of_get rfl (findingSchema_toJs _)
  have hq : field "adjusterReportQuality" adjusterReportQualitySchema r.toJs =
      .ok r.adjusterReportQuality := field_of_get rfl (adjusterReportQualitySchema_toJs _)
  have hv : field "verdict" enum r.toJs = .ok r.verdict := field_of_get rfl (enum_word _)
  have hc : field "confidence" enum r.toJs = .ok r.confidence := field_of_get rfl (enum_word _)
  have ho : field "carveOuts" carveOutsSchema r.toJs = .ok r.carveOuts :=
    field_of_get rfl (carveOutsSchema_toJs _)
  have hd : field "consumerDutyChecks" consumerDutyChecksSchema r.toJs =
      .ok r.consumerDutyChecks := field_of_get rfl (consumerDutyChecksSchema_toJs _)
  have he : field "escalate" escalateSchema r.toJs = .ok r.escalate :=
    field_of_get rfl (escalateSchema_toJs _)
  rw [reviewSchema, object_of_obj _ r.toJs ⟨_, rfl⟩, hstr "wordingVersion" _ rfl,
    hstr "wordingNote" _ rfl, h1, h2, h3, hq, hv, hc, hlist "confidenceDrivers" _ rfl,
    hlist "wouldChangeMind" _ rfl, ho, hd, he, hlist "citedDrns" _ rfl,
    hstr "draftParagraph" _ rfl]
  rfl

end StormReview

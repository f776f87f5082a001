import StormReview.Zod.Exact
import StormReview.Schemas.Review

/-! What the review schema accepts, object by object. -/
namespace StormReview
open Js Zod

theorem exact_word {α : Type} [Enum α] : Exact (enum : Parser α) word := exact_enum

theorem exact_words {α : Type} [Enum α] :
    Exact (array (enum : Parser α)) fun as => .arr (as.map word) := exact_array exact_word

theorem exact_texts : Exact (array string) texts := exact_array exact_string

theorem exact_evidence : Exact evidenceSchema Evidence.toJs := exact_object fun v e => by
  obtain ⟨source, ref, quote⟩ := e
  simp only [Parsed.seq_eq_ok, Parsed.map_eq_ok, exact_field exact_word, exact_field exact_string,
    exists_and_left, exists_exists_and_eq_and, exists_exists_and_exists_and_eq_and,
    Evidence.mk.injEq, ↓existsAndEq, and_true, HoldsFields]

theorem exact_finding {φ : Type} [Enum φ] :
    Exact (findingSchema : Parser (Finding φ)) Finding.toJs := exact_object fun v f => by
  obtain ⟨finding, evidence, gaps⟩ := f
  simp only [Parsed.seq_eq_ok, Parsed.map_eq_ok, exact_field exact_word,
    exact_field (exact_array exact_evidence), exact_field exact_texts, exists_and_left,
    exists_exists_and_eq_and, exists_exists_and_exists_and_eq_and, Finding.mk.injEq, ↓existsAndEq,
    and_true, HoldsFields]

theorem exact_adjusterReportQuality :
    Exact adjusterReportQualitySchema AdjusterReportQuality.toJs := exact_object fun v q => by
  obtain ⟨correct, dated, repairs, reasoned, note⟩ := q
  simp only [Parsed.seq_eq_ok, Parsed.map_eq_ok, exact_field exact_boolean,
    exact_field exact_string, exists_and_left, exists_exists_and_eq_and,
    exists_exists_and_exists_and_eq_and, AdjusterReportQuality.mk.injEq, ↓existsAndEq, and_true,
    and_assoc, HoldsFields]

theorem exact_carveOuts : Exact carveOutsSchema CarveOuts.toJs := exact_object fun v c => by
  obtain ⟨temporary, internal⟩ := c
  simp only [Parsed.seq_eq_ok, Parsed.map_eq_ok, exact_field exact_word, exists_and_left,
    exists_exists_and_eq_and, CarveOuts.mk.injEq, exists_eq_right_right, and_true, HoldsFields]

theorem exact_consumerDutyChecks :
    Exact consumerDutyChecksSchema ConsumerDutyChecks.toJs := exact_object fun v c => by
  obtain ⟨vulnerability, cash, reasons⟩ := c
  simp only [Parsed.seq_eq_ok, Parsed.map_eq_ok, exact_field exact_boolean,
    exact_field exact_word, exists_and_left, exists_exists_and_eq_and,
    exists_exists_and_exists_and_eq_and, ConsumerDutyChecks.mk.injEq, ↓existsAndEq, and_true,
    HoldsFields]

theorem exact_escalate : Exact escalateSchema Escalate.toJs := exact_object fun v e => by
  obtain ⟨required, targets, why⟩ := e
  simp only [Parsed.seq_eq_ok, Parsed.map_eq_ok, exact_field exact_boolean,
    exact_field exact_words, exact_field exact_string, exists_and_left, exists_exists_and_eq_and,
    exists_exists_and_exists_and_eq_and, Escalate.mk.injEq, ↓existsAndEq, and_true, HoldsFields]

theorem exact_review : Exact reviewSchema Review.toJs := exact_object fun v r => by
  obtain ⟨version, note, q1, q2, q3, report, verdict, confidence, drivers, minds, carve, duty,
    escalate, drns, draft⟩ := r
  simp only [Parsed.seq_eq_ok, Parsed.map_eq_ok, exact_field exact_string,
    exact_field exact_finding, exact_field exact_adjusterReportQuality, exact_field exact_word,
    exact_field exact_texts, exact_field exact_carveOuts, exact_field exact_consumerDutyChecks,
    exact_field exact_escalate, exists_and_left, exists_exists_and_eq_and,
    exists_exists_and_exists_and_eq_and, Review.mk.injEq, ↓existsAndEq, and_true, and_assoc,
    HoldsFields]

end StormReview

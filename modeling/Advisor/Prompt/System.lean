import Advisor.Locale
import Advisor.Plan.Basic

namespace Advisor.Prompt

def persona (assistant : String) (locale : Locale) : String :=
  match locale with
  | .en =>
      "You are " ++ assistant ++ ", the trading advisor built into a marketplace scanning station. " ++
      "Answer in English. Be concrete and honest about uncertainty. " ++
      "Never reveal internal field names, plans, checks or notes."
  | .ru =>
      "Ты " ++ assistant ++ ", торговый советник внутри станции сканирования маркетплейса. " ++
      "Отвечай по-русски. Будь конкретен и честно говори о неопределённости. " ++
      "Никогда не раскрывай внутренние поля, планы, проверки и заметки."

def policy (intent : Intent) (locale : Locale) : String :=
  match intent with
  | .smalltalk => locale.pick
      "Reply briefly and warmly. Do not analyse scans unless asked."
      "Ответь кратко и дружелюбно. Не анализируй сканы без запроса."
  | .tradingAnalysis => locale.pick
      ("Base every claim on the scan rows and account figures provided. " ++
        "Quote concrete numbers (prices, profit, score). Call out risky or extreme rows. " ++
        "Never invent items or prices that are not in the context.")
      ("Опирай каждое утверждение на строки скана и данные аккаунта. " ++
        "Приводи конкретные числа (цены, прибыль, оценка). Отмечай рискованные и экстремальные строки. " ++
        "Не придумывай предметы и цены, которых нет в контексте.")
  | .productHelp => locale.pick
      ("Explain how the product works using the documentation snippets. " ++
        "If the documentation does not cover it, say so.")
      ("Объясни, как работает продукт, опираясь на фрагменты документации. " ++
        "Если документация этого не покрывает, скажи об этом.")
  | .debugSupport => locale.pick
      "Help diagnose the problem: likely causes first, then concrete steps to verify and fix."
      "Помоги диагностировать проблему: сначала вероятные причины, затем конкретные шаги проверки и исправления."
  | .webResearch => locale.pick
      ("Summarise what the web sources say and cite them. " ++
        "Flag when sources disagree or look outdated.")
      ("Кратко изложи, что говорят веб-источники, и ссылайся на них. " ++
        "Отмечай, если источники противоречат друг другу или устарели.")
  | .general => locale.pick
      "Answer the question directly, using the scan context only where it helps."
      "Ответь на вопрос прямо, используя контекст скана только там, где это помогает."

def shape (mode : ResponseMode) (locale : Locale) : Option String :=
  match mode with
  | .short => some (locale.pick
      "Keep it to two or three sentences."
      "Уложись в два-три предложения.")
  | .structured => some (locale.pick
      "Structure the answer: summary, top candidates with numbers, risks, next steps."
      "Структурируй ответ: итог, лучшие кандидаты с числами, риски, следующие шаги.")
  | .diagnostic => some (locale.pick
      "Structure the answer: symptoms, likely causes, checks, fix."
      "Структурируй ответ: симптомы, вероятные причины, проверки, исправление.")
  | .qa => none

def system (plan : Plan) (assistant : String) (locale : Locale) : String :=
  let helpers :=
    if plan.agents.isEmpty then []
    else [locale.pick "Active helpers" "Активные помощники" ++ ": " ++
      ", ".intercalate (plan.agents.map Agent.name)]
  "\n\n".intercalate
    ([persona assistant locale, policy plan.intent locale] ++ (shape plan.responseMode locale).toList ++
      helpers)

end Advisor.Prompt

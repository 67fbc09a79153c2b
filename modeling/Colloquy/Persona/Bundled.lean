import Colloquy.Flowchart.Compile

/-!
The flowcharts of the personas that are ready to use.
-/

namespace Colloquy.Bundled

open Template (hole)

def one : Floating := .finite ⟨false, 8388608, -23⟩

def activityGreeting : List NodeSpec :=
  [ { id := "FirstTimeEver",
      text :=
        "Based on the conversation history, is this the first time ever talking to the " ++
          "user?",
      connections := [("Yes", "Introduce"), ("No", "FirstTimeToday")] },
    { id := "Introduce",
      text :=
        "Introduce yourself, say that you're Jarvis, you're happy to meet the user and " ++
          "you're here to talk to them about their recent activities and automatically " ++
          "track them. Then ask what they've been up to recently or how they're doing." },
    { id := "FirstTimeToday",
      text :=
        "Based on the conversation history, is this the first time talking today?",
      connections := [("Yes", "Greet"), ("No", "End")] },
    { id := "Greet",
      text :=
        "Greet the user, asking what they have been up to since you last talked X days " ++
          "ago (use the conversation history to determine how many days)." },
    { id := "End",
      text :=
        "Conclude the conversation appropriately based on the entire interaction." } ]

def activityEntry : Schema :=
  ⟨"ExtractedActivityEntry",
    [{ name := "activity_id", type := .string,
       description := some "The id of the activity that was logged" },
     { name := "date", type := .string,
       description := some "The date of when the activity was done. YYYY-MM-DD" },
     { name := "measure", type := .string,
       description := some "The measure of the activity (minutes, kilometers, pages, etc)" },
     { name := "quantity", type := .integer,
       description := some "The quantity of the activity (how many minutes were spent reading / how many kilometers were ran / etc)" }]⟩

def activityEntries : Schema :=
  ⟨"ExtractedActivityEntryList",
    [{ name := "activities", type := .array (.object activityEntry),
       description := some "A list of activities that were logged" }]⟩

def activityLogging : List NodeSpec :=
  [ { id := "ActivityScanner",
      text :=
        "Did the user recently mention in the conversation history any activity that " ++
          "has not been extracted by you yet?",
      temperature := some Outline.defaultTemperature,
      connections := [("Yes", "CheckActivityQualifies"), ("No", "Converse")] },
    { id := "CheckActivityQualifies",
      text :=
        "Does the activity exist in the user's activities list?",
      temperature := some Outline.defaultTemperature,
      connections := 
        [("Yes", "CheckActivityMeasurement"),
         ("No", "InformTheUserOnlyExistingActivitiesAreSupported")] },
    { id := "CheckActivityMeasurement",
      text :=
        "Did the user mention the date of when the activity was done and the measure " ++
          "(for how long, how many pages, etc) in the messages exchanged with you?",
      connections := [("No", "AskForMoreInformation"), ("Yes", "ExtractActivity")] },
    { id := "AskForMoreInformation",
      text :=
        "Ask the user for the missing information about the activity (either date and " ++
          "/ or measure, whatever is missing)." },
    { id := "ExtractActivity",
      text :=
        "Extract new activities from the user's message. New activities are activities " ++
          "that are not on the recent activities list.",
      schema := some activityEntries,
      connections := [("default", "InformTheUserAboutTheActivity")] },
    { id := "InformTheUserAboutTheActivity",
      text :=
        "Inform the user that you've extracted the activity, which they need to accept " ++
          "or reject." },
    { id := "InformTheUserOnlyExistingActivitiesAreSupported",
      text :=
        "Inform the user that you only support activities that are on their activities " ++
          "list." },
    { id := "Converse",
      text :=
        "Let the user lead an engaging and challenging conversation with you, given " ++
          "your goal and recent conversation history.",
      temperature := some one } ]

def weekGreeting : List NodeSpec :=
  [ { id := "FirstTimeEver",
      text :=
        "Based on the conversation history, is this the first time ever talking to the " ++
          "user?",
      connections := [("Yes", "Introduce"), ("No", "FirstTimeToday")] },
    { id := "Introduce",
      text :=
        "Introduce yourself, say that you're Jarvis, you're happy to meet the user and " ++
          "you're here to help them prepare next week, which you'll do by analysing " ++
          "their plans and activity logs. Ask for their confirmation." },
    { id := "FirstTimeToday",
      text :=
        "Based on the conversation history, is this the first time talking today?",
      connections := [("Yes", "Greet"), ("No", "End")] },
    { id := "Greet",
      text :=
        "Greet the user, asking what they have been up to since you last talked X days " ++
          "ago (use the conversation history to determine how many days)." },
    { id := "End",
      text :=
        "Conclude the conversation appropriately based on the entire interaction." } ]

def planNames : Schema :=
  ⟨"AllPlanNames",
    [{ name := "plan_names", type := .array .string,
       description := some "All plan names" }]⟩

def planSession : Schema :=
  ⟨"PlanSession",
    [{ name := "date", type := .string,
       description := some "The date of the session. YYYY-MM-DD" },
     { name := "descriptive_guide", type := .string,
       description := some "What the session consists of" },
     { name := "quantity", type := .integer,
       description := some "The quantity of the activity for the session" },
     { name := "activity_id", type := .string,
       description := some "The id of the activity the session belongs to" }]⟩

def suggestedSessions : Schema :=
  ⟨"SuggestedNextWeekSessions",
    [{ name := "plan_name", type := .string,
       description := some "The name of the plan" },
     { name := "next_week_sessions", type := .array (.object planSession),
       description := some "The sessions to be added to the plan for the upcoming week" }]⟩

def weekReview : List NodeSpec :=
  [ { id := "Start",
      text :=
        "Start the conversation.",
      connections := [("default", "ExtractPlanNames")] },
    { id := "ExtractPlanNames",
      text :=
        "Extract all plan names from the user's plan list.",
      schema := some planNames,
      connections := [("default", "StartPlanLoop")] },
    { id := "StartPlanLoop",
      kind := some .loopStart, iterator := some "current_plan", collection := some "plan_names",
      connections := [("default", "CheckPlanDiscussed")] },
    { id := "CheckPlanDiscussed",
      text :=
        "Based exclusively on the very conversation, have you asked the user to " ++
          "specifically discuss '" ++ hole "current_plan" ++ "' and the user accepted?",
      connections := [("Yes", "CheckNextWeekPlans"), ("No", "AskToDiscussPlan")] },
    { id := "AskToDiscussPlan",
      text :=
        "Ask the user if they would like to discuss the plan '" ++ hole "current_plan" ++ "'.",
      temperature := some one },
    { id := "CheckNextWeekPlans",
      text :=
        "Did the user explicitly mention in the recent conversation history which of " ++
          "the upcoming week's sessions for plan '" ++ hole "current_plan" ++
          "' they intend to do? Note that a mention that no adjustments are needed is " ++
          "also an explicit mention and should be answered with 'Yes'.",
      connections := [("Yes", "CheckSuggestedChanges"), ("No", "AskNextWeekPlans")] },
    { id := "AskNextWeekPlans",
      text :=
        "Remind the user of their upcoming week planned sessions for '" ++
          hole "current_plan" ++
          "' and ask what their plans are about it / if they plan on doing them all.",
      temperature := some one },
    { id := "CheckSuggestedChanges",
      text :=
        "Based on recent conversation history, do you suggest any change to '" ++
          hole "current_plan" ++
          "' upcoming week's sessions? Note that the frequency of the sessions is much " ++
          "more important than the day of the week.",
      connections := [("Yes", "SuggestedChanges"), ("No", "NextPlan")] },
    { id := "SuggestedChanges",
      text :=
        "Analyse and suggest changes for plan '" ++ hole "current_plan" ++
          "'. You can only make changes to the plan sessions date & details.",
      temperature := some one,
      schema := some suggestedSessions,
      connections := [("default", "InformTheUserAboutTheChanges")] },
    { id := "InformTheUserAboutTheChanges",
      text :=
        "Inform the user that you've generated some upcoming week changes, which they " ++
          "need to accept or reject." },
    { id := "NextPlan",
      kind := some .loopContinue,
      connections := [("HasMore", "StartPlanLoop"), ("Complete", "Conclude")] },
    { id := "Conclude",
      text :=
        "Wrap up the conversation with a summary of what was discussed and what " ++
          "actions were decided.",
      temperature := some one } ]

end Colloquy.Bundled

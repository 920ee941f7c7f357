import ReplyFlow.Template.Basic

/-! A conversation with an applicant: first contact, the choice of a time for the interview, its
confirmation, a reminder and a word of thanks. Applicants who decline may start again.
-/

set_option autoImplicit false

namespace ReplyFlow.Samples

/-- Text for which the sender fills in a value. -/
def slot (name : String) : String :=
  "\x7b\x7b" ++ name ++ "\x7d\x7d"

def reply (key action : String) (next : Int)
    (visible : Text.isBlankText key = false := by decide +kernel) : Response :=
  ⟨key, action, some next, visible⟩

def restartNote : String :=
  "If you change your mind and are interested in future opportunities, please reply \"Restart\"."

def restart : List Response :=
  [reply "Restart" "Restart Flow" 1]

def firstContact : Template where
  id := 1
  name := "Initial Contact"
  trigger := "Application Received"
  message := "Hi " ++ slot "candidateName" ++ ", we are from " ++ slot "companyName" ++ ".\n\n"
    ++ "We have received your application for " ++ slot "jobTitle" ++ ".\n\n"
    ++ "Are you interested in this position?\n"
    ++ "1. Interested\n2. Not Interested\n3. Don't send messages"
  responses := [reply "1" "Go to Scheduling" 2, reply "2" "Go to Not Interested" 3,
    reply "3" "Go to Opt Out" 4]
  active := true
  sentCount := 147

def scheduling : Template where
  id := 2
  name := "Interview Scheduling"
  trigger := "Candidate Interested"
  message := "Please choose a time slot for the interview:\n1. " ++ slot "timeSlot1" ++ "\n2. "
    ++ slot "timeSlot2" ++ "\n3. " ++ slot "timeSlot3"
  responses := [reply "1" "Schedule Slot 1" 5, reply "2" "Schedule Slot 2" 6,
    reply "3" "Schedule Slot 3" 7]
  active := true
  sentCount := 89

def notInterested : Template where
  id := 3
  name := "Not Interested Response"
  trigger := "Candidate Not Interested"
  message := "Thank you for your time. We wish you the best in your job search.\n\n" ++ restartNote
  responses := restart
  active := true
  sentCount := 23

def optOut : Template where
  id := 4
  name := "Opt Out Confirmation"
  trigger := "Candidate Opts Out"
  message := "You have been removed from our contact list. Thank you.\n\n" ++ restartNote
  responses := restart
  active := true
  sentCount := 12

/-- The confirmation of one of the times offered. -/
def confirmation (id : Int) (number : String) (sentCount : Nat) : Template where
  id := id
  name := "Slot " ++ number ++ " Confirmation"
  trigger := "Slot " ++ number ++ " Selected"
  message := "Great! You are scheduled for " ++ slot ("timeSlot" ++ number)
    ++ ". We will send you a reminder 24 hours before the interview. "
    ++ "Reply \"Reschedule\" if you need to change the time."
  responses := [reply "Reschedule" "Go to Scheduling" 2, reply "Confirm" "Confirm Interview" 8]
  active := true
  sentCount := sentCount

def reminder : Template where
  id := 8
  name := "Interview Reminder"
  trigger := "Interview Reminder"
  message := "Reminder: Your interview for " ++ slot "jobTitle"
    ++ " is scheduled for tomorrow. Please be prepared to discuss your experience and "
    ++ "qualifications. Reply \"Confirm\" to confirm your attendance."
  responses := [reply "Confirm" "Confirm Attendance" 9, reply "Reschedule" "Go to Scheduling" 2]
  active := true
  sentCount := 65

def followUp : Template where
  id := 9
  name := "Post-Interview Follow-up"
  trigger := "Post-Interview"
  message := "Thank you for attending the interview for " ++ slot "jobTitle"
    ++ ". We appreciate your time and interest. We will be in touch with next steps soon."
  responses := []
  active := true
  sentCount := 42

def templates : List Template :=
  [firstContact, scheduling, notInterested, optOut, confirmation 5 "1" 32, confirmation 6 "2" 28,
    confirmation 7 "3" 29, reminder, followUp]

end ReplyFlow.Samples
